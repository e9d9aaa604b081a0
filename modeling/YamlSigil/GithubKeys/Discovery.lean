/-
Discovery of the public keys of an account.

An account has two lists of keys, and a list comes in pages.  A page names the next one in a
link, of which only the number is used: the request is built again from the account.  The
keys of all pages of both lists are found, or none.
-/
import YamlSigil.Control.Crash
import YamlSigil.GithubKeys.Candidate
import YamlSigil.Release.Policy

namespace YamlSigil
namespace GithubKeys

open YamlSigil.Core Verification Control Format.SemVer Release

def maxDiscoveryBytes : Nat := 256 * 1024

def maxPagesPerResource : Nat := 10

def perPage : Nat := 100

def rateLimitHelp : Text :=
  ("See examples/github-keys/README.md, 'GitHub API rate limits and offline runs', for retry " ++
  "guidance and the explicit public-key option: https://github.com/NVIDIA/yaml-sigil-rs/blob/" ++
  "main/examples/github-keys/README.md#github-api-rate-limits-and-offline-runs").toList

/-! ## Accounts -/

def isUsername (username : Text) : Bool :=
  decide (1 ≤ username.length) && decide (username.length ≤ 39) &&
    username.all (fun c => c.isAlphanum || c == '-') &&
    username.head? != some '-' && username.getLast? != some '-' &&
    !decide ("--".toList <:+: username)

/-- A user name and nothing else. -/
structure GitHubAccount where
  username : Text
  valid : isUsername username = true

namespace GitHubAccount

/-- `from_str` -/
def ofText (username : Text) : Except KeyError GitHubAccount :=
  if h : isUsername username = true then .ok ⟨username, h⟩
  else .error (.message
    "expected a GitHub username, such as ddurst-nvidia (not a URL)".toList)

def base (account : GitHubAccount) : Text :=
  "https://api.github.com/users/".toList ++ account.username

def keyUrls (account : GitHubAccount) : List Text :=
  [account.base ++ "/keys".toList, account.base ++ "/ssh_signing_keys".toList]

end GitHubAccount

/-! ## Responses -/

/-- The octets of a body, and whether the stream fails behind them. -/
structure Body where
  bytes : Bytes
  fails : Bool
deriving Repr, DecidableEq

/-- The names of headers are in lower case. -/
structure Response where
  status : Nat
  headers : List (Text × Bytes)
  body : Body
deriving Repr, DecidableEq

structure Uri where
  scheme : Option Text
  authority : Option Text
  path : Text
  query : Option Text
deriving Repr, DecidableEq

/-- The libraries behind a response: URIs, and the string keys of the records of a JSON
array, if it is one.  `statusText` is how a status is written. -/
structure Web where
  parseUri : Text → Option Uri
  records : Bytes → Option (List (Option Text))
  statusText : Nat → Text

namespace Response

/-- `HeaderMap::get_all` -/
def getAll (r : Response) (name : Text) : List Bytes :=
  (r.headers.filter fun header => header.1 = name).map Prod.snd

def get (r : Response) (name : Text) : Option Bytes := (r.getAll name).head?

end Response

/-- `HeaderValue::to_str` -/
def headerText (value : Bytes) : Option Text :=
  if value.all fun b => (32 ≤ b && b < 127) || b == 9 then fromUtf8 value else none

def rateLimitError (W : Web) (status : Nat) (advice : Text) : KeyError :=
  .message ("GitHub public-key lookup returned HTTP ".toList ++ W.statusText status ++
    "; anonymous API rate limit reached; ".toList ++ advice ++ ".\n".toList ++ rateLimitHelp)

def checkStatus (W : Web) (r : Response) : Except KeyError Unit :=
  let exhausted := (r.get "x-ratelimit-remaining".toList).any fun value => value = asBytes ['0']
  if r.status = 429 ∨
      (r.status = 403 ∧ (exhausted = true ∨ (r.get "retry-after".toList).isSome = true)) then
    let number := fun name : Text => ((r.get name).bind headerText).bind parseU64
    match number "retry-after".toList, number "x-ratelimit-reset".toList with
    | some seconds, _ =>
      .error (rateLimitError W r.status
        ("retry after ".toList ++ digits seconds ++ " seconds".toList))
    | none, some reset =>
      .error (rateLimitError W r.status ("retry after Unix timestamp ".toList ++ digits reset))
    | none, none => .error (rateLimitError W r.status "retry later".toList)
  else if r.status = 200 then .ok ()
  else .error (.message
    ("GitHub public-key lookup returned HTTP ".toList ++ W.statusText r.status))

/-! ## Links -/

def ensure (condition : Bool) (text : String) : Except KeyError Unit :=
  if condition then .ok () else .error (.message text.toList)

/-- `anyhow::Context::context` of a missing value -/
def orError {α : Type} (value : Option α) (text : String) : Except KeyError α :=
  match value with
  | some a => .ok a
  | none => .error (.message text.toList)

/-- `str::rsplit_once` -/
def rsplitOnce (d : Char) (t : Text) : Option (Text × Text) :=
  (splitOnce d t.reverse).map fun parts => (parts.2.reverse, parts.1.reverse)

/-- `str::trim_matches` -/
def trimMatches (d : Char) (t : Text) : Text :=
  ((t.dropWhile (· = d)).reverse.dropWhile (· = d)).reverse

def isAsciiWhitespace (c : Char) : Bool :=
  c = ' ' || c = '\t' || c = '\n' || c = '\r' || c = '\x0C'

/-- The relation of a link, of which there is one. -/
def relationOf : Option Text → List Text → Except KeyError (Option Text)
  | relation, [] => .ok relation
  | relation, parameter :: rest => do
    let (name, value) ← orError (splitOnce '=' (trim parameter)) "malformed GitHub link parameter"
    if name = "rel".toList then
      ensure relation.isNone "duplicate GitHub link relation"
      relationOf (some (trimMatches '"' value)) rest
    else relationOf relation rest

/-- The numbers of a query: `page` and `per_page`, each at most once. -/
def pageNumbers : Option Nat → Option Nat → List Text → Except KeyError (Option Nat × Option Nat)
  | page, per, [] => .ok (page, per)
  | page, per, parameter :: rest => do
    let (name, value) ← orError (splitOnce '=' parameter) "invalid GitHub pagination parameter"
    if name = "page".toList then
      ensure page.isNone "duplicate GitHub pagination parameter"
      let number ← orError (parseU64 value) "invalid GitHub page number"
      pageNumbers (some number) per rest
    else if name = "per_page".toList then
      ensure per.isNone "duplicate GitHub pagination parameter"
      let number ← orError (parseU64 value) "invalid GitHub page number"
      pageNumbers page (some number) rest
    else .error (.message "unexpected GitHub pagination parameter".toList)

/-- `/user/NUMERIC_ID/...`, to the same resource. -/
def isNumericAlias (path suffix : Text) : Bool :=
  match "/user/".toList.isPrefixOf? path with
  | none => false
  | some rest =>
    match suffix.isSuffixOf? rest with
    | none => false
    | some id => !id.isEmpty && id.all Char.isDigit

/-- The resource of a URL, as the path of a key list ends with it. -/
def expectedUri (W : Web) (endpoint : Text) : Except KeyError (Uri × Text) := do
  let expected ← orError (W.parseUri endpoint) "invalid URI"
  let (_, resource) ← orError (rsplitOnce '/' expected.path) "invalid key URL"
  .ok (expected, '/' :: resource)

/-- A link apart: its target and its relation. -/
def linkParts (link : Text) : Except KeyError (Text × Text) := do
  let (target, parameters) ←
    orError (splitOnce '>' (trim link)) "malformed GitHub pagination link"
  let target ← orError ("<".toList.isPrefixOf? target) "malformed GitHub pagination URL"
  ensure ((trimStart parameters).head? == some ';') "missing GitHub link relation"
  let relation ← relationOf none ((parameters.splitOn ';').drop 1)
  let relation ← orError relation "missing GitHub link relation"
  .ok (target, relation)

/-- `split_ascii_whitespace`, and one of its words. -/
def isNextRelation (relation : Text) : Bool :=
  (relation.splitOnP isAsciiWhitespace).any (· = "next".toList)

/-- The target of a next link is the next page of the same resource. -/
def checkNext (W : Web) (expected : Uri) (suffix : Text) (page : Nat) (target : Text) :
    Except KeyError Unit := do
  let uri ← orError (W.parseUri target) "invalid GitHub pagination URL"
  ensure (uri.scheme == some "https".toList && uri.authority == some "api.github.com".toList &&
      !target.contains '#' && (uri.path == expected.path || isNumericAlias uri.path suffix))
    "GitHub pagination link leaves the expected public-key resource"
  let query ← orError uri.query "GitHub pagination link has no query"
  let (next, per) ← pageNumbers none none (query.splitOn '&')
  ensure (next == some (page + 1) && per == some perPage)
    "GitHub pagination must advance one page with per_page=100"

/-- The links in their order; `next` when one of them was to the next page. -/
def scanLinks (W : Web) (expected : Uri) (suffix : Text) (page : Nat) :
    Bool → List Text → Except KeyError Bool
  | next, [] => .ok next
  | next, link :: rest => do
    let (target, relation) ← linkParts link
    if isNextRelation relation then
      ensure (!next) "multiple next-page links from GitHub"
      checkNext W expected suffix page target
      scanLinks W expected suffix page true rest
    else scanLinks W expected suffix page next rest

def scanHeaders (W : Web) (expected : Uri) (suffix : Text) (page : Nat) :
    Bool → List Bytes → Except KeyError Bool
  | next, [] => .ok next
  | next, header :: rest => do
    let text ← orError (headerText header) "invalid GitHub Link header"
    let next ← scanLinks W expected suffix page next (text.splitOn ',')
    scanHeaders W expected suffix page next rest

def hasNextPage (W : Web) (r : Response) (endpoint : Text) (page : Nat) :
    Except KeyError Bool := do
  let (expected, suffix) ← expectedUri W endpoint
  scanHeaders W expected suffix page false (r.getAll "link".toList)

/-! ## Pages -/

/-- `str::eq_ignore_ascii_case` -/
def eqIgnoreAsciiCase (s t : Text) : Bool := s.map Char.toLower == t.map Char.toLower

def isJson (r : Response) : Bool :=
  (((r.get "content-type".toList).bind headerText).bind fun text =>
      (text.splitOn ';').head?).any fun value =>
    eqIgnoreAsciiCase (trim value) "application/json".toList ||
      eqIgnoreAsciiCase (trim value) "application/vnd.github+json".toList

/-- `take` and `read_to_end`: the stream fails only if it is read to its end. -/
def Body.read (body : Body) (wanted : Nat) : Option Bytes :=
  if wanted ≤ body.bytes.length then some (body.bytes.take wanted)
  else if body.fails then none
  else some body.bytes

/-- The key of a record is one line, and no comment. -/
def recordKey (record : Option Text) : Except KeyError Text := do
  let key ← orError record "GitHub public-key entry has no string key"
  ensure (!(trim key).isEmpty && !key.contains '\r' && !key.contains '\n' &&
      (trimStart key).head? != some '#')
    "GitHub public-key entry must contain one OpenSSH public key"
  .ok key

/-- The keys of a page, and how many octets remain behind it. -/
def readPage (W : Web) (r : Response) (remaining : Nat) : Except KeyError (List Text × Nat) := do
  ensure (isJson r) "GitHub public-key lookup did not return JSON"
  let bytes ← orError (r.body.read (remaining + 1)) "could not read GitHub public-key page"
  ensure (bytes.length ≤ remaining) "GitHub public-key discovery exceeds limit 256 KiB"
  let records ← orError (W.records bytes) "invalid GitHub public-key JSON"
  let keys ← records.mapM recordKey
  .ok (keys, remaining - bytes.length)

/-! ## Lookups -/

/-- A lookup asks for one URL after the other. -/
abbrev Looking (α : Type) :=
  ExceptT KeyError (Dialogue Text fun _ => Except KeyError Response) α

def fetchUrl (url : Text) : Looking Response := ExceptT.mk (.ask url .done)

def liftResult {α : Type} (r : Except KeyError α) : Looking α := ExceptT.mk (.done r)

def pageUrl (endpoint : Text) (page : Nat) : Text :=
  endpoint ++ "?per_page=".toList ++ digits perPage ++ "&page=".toList ++ digits page

/-- The pages from `page` on, of which `left` may still be asked for. -/
def pagesFrom (W : Web) (endpoint : Text) :
    (left page remaining : Nat) → Looking (List Text × Nat)
  | 0, _, _ =>
    liftResult (.error (.message ("GitHub public-key discovery exceeds the ".toList ++
      digits maxPagesPerResource ++ "-page limit for ".toList ++ endpoint)))
  | left + 1, page, remaining => do
    let response ← fetchUrl (pageUrl endpoint page)
    liftResult (checkStatus W response)
    let next ← liftResult (hasNextPage W response endpoint page)
    let (keys, remaining) ← liftResult (readPage W response remaining)
    if next then
      let (others, remaining) ← pagesFrom W endpoint left (page + 1) remaining
      pure (keys ++ others, remaining)
    else pure (keys, remaining)

def fetchResourcePages (W : Web) (endpoint : Text) (remaining : Nat) :
    Looking (List Text × Nat) := pagesFrom W endpoint maxPagesPerResource 1 remaining

section
variable {C : KeyCrypto} {S : Ssh}

/-- `keys.join("\n")` -/
def joinLines (keys : List Text) : Text := ['\n'].intercalate keys

def Candidate.withSource (source : Text) (c : Candidate C S) : Candidate C S :=
  { c with source := some source }

/-- The lists of keys from the first of `endpoints` on, with the candidates so far. -/
def endpointsFrom (C : KeyCrypto) (S : Ssh) (W : Web) :
    List Text → Nat → List (Candidate C S) → Looking (List (Candidate C S))
  | [], _, candidates => pure candidates
  | endpoint :: rest, remaining, candidates => do
    let (keys, remaining) ← fetchResourcePages W endpoint remaining
    let found ← liftResult (parseCandidates C S (joinLines keys))
    endpointsFrom C S W rest remaining
      (pushAll Candidate.octets candidates (found.map (Candidate.withSource endpoint)))

def fetchPages (C : KeyCrypto) (S : Ssh) (W : Web) (account : GitHubAccount) :
    Looking (List (Candidate C S)) := do
  let candidates ← endpointsFrom C S W account.keyUrls maxDiscoveryBytes []
  if candidates.isEmpty then
    liftResult (.error (.message
      "GitHub account lists no supported Ed25519 public keys".toList))
  else pure candidates

end

end GithubKeys
end YamlSigil
