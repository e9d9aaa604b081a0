/-
What the links of a response are read as.

A response is accepted when all of its links can be read, no two of them are to a next page,
and one that is leads to the next page of the same list: over the same origin, to the same
resource or its alias by number, with the two numbers of its query and nothing else.
-/
import YamlSigil.GithubKeys.Discovery

namespace YamlSigil
namespace GithubKeys

open YamlSigil.Core Verification Release

theorem ensure_eq_ok_iff {condition : Bool} {text : String} {u : Unit} :
    ensure condition text = .ok u ↔ condition = true := by
  cases condition with
  | false => exact iff_of_false (fun h => by cases h) Bool.false_ne_true
  | true => exact iff_of_true rfl rfl

theorem orError_eq_ok_iff {α : Type} {value : Option α} {text : String} {a : α} :
    orError value text = .ok a ↔ value = some a := by
  cases value with
  | none => exact iff_of_false (fun h => by cases h) (fun h => by cases h)
  | some b => exact ⟨fun h => congrArg some (Except.ok.inj h), fun h => by cases h; rfl⟩

/-! ## Queries -/

/-- A parameter of a query with a number. -/
def Numbered (name parameter : Text) (number : Nat) : Prop :=
  ∃ value, parameter = name ++ '=' :: value ∧ parseU64 value = some number

theorem numbered_iff {name parameter name' value : Text} {number : Nat} (hname : '=' ∉ name)
    (hsplit : splitOnce '=' parameter = some (name', value)) :
    Numbered name parameter number ↔ name' = name ∧ parseU64 value = some number := by
  constructor
  · rintro ⟨value', heq, hvalue⟩
    rw [splitOnce_eq_some_iff.mpr ⟨heq, hname⟩] at hsplit
    cases hsplit
    exact ⟨rfl, hvalue⟩
  · rintro ⟨rfl, hvalue⟩
    exact ⟨value, (splitOnce_eq_some_iff.mp hsplit).1, hvalue⟩

theorem pageNumbers_cons_iff {page per : Option Nat} {parameter : Text} {rest : List Text}
    {numbers : Option Nat × Option Nat} :
    pageNumbers page per (parameter :: rest) = .ok numbers ↔
      (∃ number, page = none ∧ Numbered "page".toList parameter number ∧
        pageNumbers (some number) per rest = .ok numbers) ∨
      (∃ number, per = none ∧ Numbered "per_page".toList parameter number ∧
        pageNumbers page (some number) rest = .ok numbers) := by
  have hpage : '=' ∉ "page".toList := by decide
  have hper : '=' ∉ "per_page".toList := by decide
  rw [pageNumbers, bind_eq_ok_iff]
  constructor
  · rintro ⟨⟨name, value⟩, hsplit, h⟩
    have hsplit := orError_eq_ok_iff.mp hsplit
    dsimp only at h
    split_ifs at h with hn hn'
    · obtain ⟨_, hnone, h⟩ := bind_eq_ok_iff.mp h
      obtain ⟨number, hnumber, h⟩ := bind_eq_ok_iff.mp h
      exact .inl ⟨number, Option.isNone_iff_eq_none.mp (ensure_eq_ok_iff.mp hnone),
        (numbered_iff hpage hsplit).mpr ⟨hn, orError_eq_ok_iff.mp hnumber⟩, h⟩
    · obtain ⟨_, hnone, h⟩ := bind_eq_ok_iff.mp h
      obtain ⟨number, hnumber, h⟩ := bind_eq_ok_iff.mp h
      exact .inr ⟨number, Option.isNone_iff_eq_none.mp (ensure_eq_ok_iff.mp hnone),
        (numbered_iff hper hsplit).mpr ⟨hn', orError_eq_ok_iff.mp hnumber⟩, h⟩
  · rintro (⟨number, rfl, ⟨value, heq, hvalue⟩, h⟩ | ⟨number, rfl, ⟨value, heq, hvalue⟩, h⟩)
    · refine ⟨_, orError_eq_ok_iff.mpr (splitOnce_eq_some_iff.mpr ⟨heq, hpage⟩), ?_⟩
      dsimp only
      rw [if_pos rfl, hvalue]
      exact h
    · refine ⟨_, orError_eq_ok_iff.mpr (splitOnce_eq_some_iff.mpr ⟨heq, hper⟩), ?_⟩
      dsimp only
      rw [if_neg (by decide), if_pos rfl, hvalue]
      exact h

theorem pageNumbers_some_some {page per : Nat} {parameters : List Text}
    {numbers : Option Nat × Option Nat} :
    pageNumbers (some page) (some per) parameters = .ok numbers ↔
      parameters = [] ∧ numbers = (some page, some per) := by
  cases parameters with
  | nil =>
    rw [pageNumbers]
    simp [eq_comm]
  | cons parameter rest => simp [pageNumbers_cons_iff]

/-- Both numbers are there, in one order or the other, and nothing else. -/
theorem pageNumbers_eq_ok_iff {parameters : List Text} {page per : Nat} :
    pageNumbers none none parameters = .ok (some page, some per) ↔
      ∃ a b, Numbered "page".toList a page ∧ Numbered "per_page".toList b per ∧
        (parameters = [a, b] ∨ parameters = [b, a]) := by
  constructor
  · intro h
    rcases parameters with _ | ⟨a, _ | ⟨b, rest⟩⟩
    · cases h
    · rw [pageNumbers_cons_iff] at h
      simp [pageNumbers] at h
    · rw [pageNumbers_cons_iff] at h
      rcases h with ⟨number, -, ha, h⟩ | ⟨number, -, ha, h⟩
      · rw [pageNumbers_cons_iff] at h
        rcases h with ⟨_, hnone, -, -⟩ | ⟨number', -, hb, h⟩
        · cases hnone
        · obtain ⟨rfl, heq⟩ := pageNumbers_some_some.mp h
          cases heq
          exact ⟨a, b, ha, hb, .inl rfl⟩
      · rw [pageNumbers_cons_iff] at h
        rcases h with ⟨number', -, hb, h⟩ | ⟨_, hnone, -, -⟩
        · obtain ⟨rfl, heq⟩ := pageNumbers_some_some.mp h
          cases heq
          exact ⟨b, a, hb, ha, .inr rfl⟩
        · cases hnone
  · rintro ⟨a, b, ha, hb, rfl | rfl⟩
    · exact pageNumbers_cons_iff.mpr (.inl ⟨page, rfl, ha, pageNumbers_cons_iff.mpr
        (.inr ⟨per, rfl, hb, rfl⟩)⟩)
    · exact pageNumbers_cons_iff.mpr (.inr ⟨per, rfl, hb, pageNumbers_cons_iff.mpr
        (.inl ⟨page, rfl, ha, rfl⟩)⟩)

/-! ## Links -/

/-- The target of a link is the page behind `page` of the same list. -/
structure NextPage (W : Web) (expected : Uri) (suffix : Text) (page : Nat) (target : Text)
    (uri : Uri) : Prop where
  parsed : W.parseUri target = some uri
  scheme : uri.scheme = some "https".toList
  authority : uri.authority = some "api.github.com".toList
  fragment : '#' ∉ target
  path : uri.path = expected.path ∨ isNumericAlias uri.path suffix = true
  query : ∃ query a b, uri.query = some query ∧ Numbered "page".toList a (page + 1) ∧
    Numbered "per_page".toList b perPage ∧
    (query.splitOn '&' = [a, b] ∨ query.splitOn '&' = [b, a])

theorem checkNext_eq_ok_iff {W : Web} {expected : Uri} {suffix target : Text} {page : Nat}
    {u : Unit} :
    checkNext W expected suffix page target = .ok u ↔
      ∃ uri, NextPage W expected suffix page target uri := by
  unfold checkNext
  simp only [bind_eq_ok_iff, orError_eq_ok_iff, ensure_eq_ok_iff, Bool.and_eq_true,
    Bool.or_eq_true, beq_iff_eq, Bool.not_eq_true', List.contains_eq_mem, decide_eq_false_iff_not]
  constructor
  · rintro ⟨uri, hparsed, -, ⟨⟨⟨hscheme, hauthority⟩, hfragment⟩, hpath⟩, query, hquery,
      ⟨next, per⟩, hnumbers, hnext, hper⟩
    cases hnext
    cases hper
    obtain ⟨a, b, ha, hb, hsplit⟩ := pageNumbers_eq_ok_iff.mp hnumbers
    exact ⟨uri, hparsed, hscheme, hauthority, hfragment, hpath, query, a, b, hquery, ha, hb,
      hsplit⟩
  · rintro ⟨uri, hparsed, hscheme, hauthority, hfragment, hpath, query, a, b, hquery, ha, hb,
      hsplit⟩
    exact ⟨uri, hparsed, (), ⟨⟨⟨hscheme, hauthority⟩, hfragment⟩, hpath⟩, query, hquery, _,
      pageNumbers_eq_ok_iff.mpr ⟨a, b, ha, hb, hsplit⟩, rfl, rfl⟩

/-- The targets of the links to a next page, of the links with their relations. -/
def nextTargets (links : List (Text × Text)) : List Text :=
  (links.filter fun link => isNextRelation link.2).map Prod.fst

theorem nextTargets_cons (link : Text × Text) (links : List (Text × Text)) :
    nextTargets (link :: links) =
      if isNextRelation link.2 then link.1 :: nextTargets links else nextTargets links := by
  unfold nextTargets
  rw [List.filter_cons]
  split_ifs
  · rw [List.map_cons]
  · rfl

/-- All of `links` can be read, those to a next page can be followed, and there is at most
one of these, the ones before counted. -/
structure Followed (W : Web) (expected : Uri) (suffix : Text) (page : Nat) (next : Bool)
    (texts : List Text) (links : List (Text × Text)) (next' : Bool) : Prop where
  read : texts.map linkParts = links.map Except.ok
  once : next.toNat + (nextTargets links).length = next'.toNat
  follow : ∀ target ∈ nextTargets links, ∃ uri, NextPage W expected suffix page target uri

section
variable {W : Web} {expected : Uri} {suffix : Text} {page : Nat}

theorem followed_nil {next next' : Bool} :
    Followed W expected suffix page next [] [] next' ↔ next = next' := by
  constructor
  · intro h
    have honce : next.toNat = next'.toNat := h.once
    cases next <;> cases next' <;> simp_all
  · rintro rfl
    exact ⟨rfl, rfl, fun _ h => (List.not_mem_nil h).elim⟩

theorem followed_cons_next {next next' : Bool} {text : Text} {link : Text × Text}
    {texts : List Text} {links : List (Text × Text)} (hnext : isNextRelation link.2 = true) :
    Followed W expected suffix page next (text :: texts) (link :: links) next' ↔
      linkParts text = .ok link ∧ next = false ∧
        (∃ uri, NextPage W expected suffix page link.1 uri) ∧
        Followed W expected suffix page true texts links next' := by
  have htargets : nextTargets (link :: links) = link.1 :: nextTargets links := by
    rw [nextTargets_cons, if_pos hnext]
  constructor
  · rintro ⟨hread, honce, hfollow⟩
    rw [htargets] at honce hfollow
    obtain ⟨hlink, hread⟩ := List.cons.inj hread
    rw [List.forall_mem_cons] at hfollow
    rw [List.length_cons] at honce
    have hle := Bool.toNat_le next'
    have hfalse : next = false := by
      cases next with
      | false => rfl
      | true =>
        rw [Bool.toNat_true] at honce
        omega
    subst hfalse
    rw [Bool.toNat_false] at honce
    exact ⟨hlink, rfl, hfollow.1, hread, by rw [Bool.toNat_true]; omega, hfollow.2⟩
  · rintro ⟨hlink, rfl, hpage, hread, honce, hfollow⟩
    refine ⟨by rw [List.map_cons, List.map_cons, hlink, hread], ?_, ?_⟩
    · rw [htargets, List.length_cons, Bool.toNat_false, ← honce, Bool.toNat_true]
      omega
    · rw [htargets]
      exact List.forall_mem_cons.mpr ⟨hpage, hfollow⟩

theorem followed_cons_other {next next' : Bool} {text : Text} {link : Text × Text}
    {texts : List Text} {links : List (Text × Text)} (hnext : ¬isNextRelation link.2 = true) :
    Followed W expected suffix page next (text :: texts) (link :: links) next' ↔
      linkParts text = .ok link ∧ Followed W expected suffix page next texts links next' := by
  have htargets : nextTargets (link :: links) = nextTargets links := by
    rw [nextTargets_cons, if_neg hnext]
  constructor
  · rintro ⟨hread, honce, hfollow⟩
    rw [htargets] at honce hfollow
    obtain ⟨hlink, hread⟩ := List.cons.inj hread
    exact ⟨hlink, hread, honce, hfollow⟩
  · rintro ⟨hlink, hread, honce, hfollow⟩
    refine ⟨by rw [List.map_cons, List.map_cons, hlink, hread], ?_, ?_⟩
    · rwa [htargets]
    · rwa [htargets]

theorem scanLinks_eq_ok_iff {next next' : Bool} {texts : List Text} :
    scanLinks W expected suffix page next texts = .ok next' ↔
      ∃ links, Followed W expected suffix page next texts links next' := by
  induction texts generalizing next with
  | nil =>
    constructor
    · intro h
      exact ⟨[], followed_nil.mpr (Except.ok.inj h)⟩
    · rintro ⟨links, h⟩
      cases links with
      | nil => exact congrArg Except.ok (followed_nil.mp h)
      | cons link links => cases h.read
  | cons text texts ih =>
    rw [scanLinks, bind_eq_ok_iff]
    constructor
    · rintro ⟨⟨target, relation⟩, hlink, h⟩
      dsimp only at h
      split_ifs at h with hnext
      · obtain ⟨_, hfirst, h⟩ := bind_eq_ok_iff.mp h
        obtain ⟨_, hcheck, h⟩ := bind_eq_ok_iff.mp h
        obtain ⟨links, hlinks⟩ := ih.mp h
        rw [ensure_eq_ok_iff, Bool.not_eq_true'] at hfirst
        exact ⟨_, (followed_cons_next hnext).mpr
          ⟨hlink, hfirst, checkNext_eq_ok_iff.mp hcheck, hlinks⟩⟩
      · obtain ⟨links, hlinks⟩ := ih.mp h
        exact ⟨_, (followed_cons_other hnext).mpr ⟨hlink, hlinks⟩⟩
    · rintro ⟨links, h⟩
      cases links with
      | nil => cases h.read
      | cons link links =>
        rcases link with ⟨target, relation⟩
        by_cases hnext : isNextRelation relation = true
        · obtain ⟨hlink, rfl, hpage, h⟩ := (followed_cons_next hnext).mp h
          refine ⟨_, hlink, ?_⟩
          dsimp only
          rw [if_pos hnext]
          exact bind_eq_ok_iff.mpr ⟨(), rfl, bind_eq_ok_iff.mpr
            ⟨(), checkNext_eq_ok_iff.mpr hpage, ih.mpr ⟨links, h⟩⟩⟩
        · obtain ⟨hlink, h⟩ := (followed_cons_other hnext).mp h
          refine ⟨_, hlink, ?_⟩
          dsimp only
          rw [if_neg hnext]
          exact ih.mpr ⟨links, h⟩

theorem scanLinks_append {next next' : Bool} {texts texts' : List Text} :
    scanLinks W expected suffix page next (texts ++ texts') = .ok next' ↔
      ∃ mid, scanLinks W expected suffix page next texts = .ok mid ∧
        scanLinks W expected suffix page mid texts' = .ok next' := by
  have happend : scanLinks W expected suffix page next (texts ++ texts') =
      scanLinks W expected suffix page next texts >>= fun mid =>
        scanLinks W expected suffix page mid texts' := by
    induction texts generalizing next with
    | nil => rfl
    | cons text texts ih =>
      rw [List.cons_append, scanLinks, scanLinks, bind_assoc]
      refine congrArg _ (funext fun link => ?_)
      rcases link with ⟨target, relation⟩
      dsimp only
      split_ifs
      · rw [bind_assoc]
        refine congrArg _ (funext fun _ => ?_)
        rw [bind_assoc]
        exact congrArg _ (funext fun _ => ih)
      · exact ih
  rw [happend, bind_eq_ok_iff]

theorem scanHeaders_eq_ok_iff {next next' : Bool} {headers : List Bytes} :
    scanHeaders W expected suffix page next headers = .ok next' ↔
      ∃ texts : List Text, headers.map headerText = texts.map some ∧
        scanLinks W expected suffix page next (texts.flatMap (·.splitOn ',')) = .ok next' := by
  induction headers generalizing next with
  | nil =>
    constructor
    · intro h
      exact ⟨[], rfl, h⟩
    · rintro ⟨texts, htexts, h⟩
      cases texts with
      | nil => exact h
      | cons text texts => cases htexts
  | cons header headers ih =>
    rw [scanHeaders, bind_eq_ok_iff]
    constructor
    · rintro ⟨text, htext, h⟩
      obtain ⟨mid, hlinks, h⟩ := bind_eq_ok_iff.mp h
      obtain ⟨texts, htexts, h⟩ := ih.mp h
      refine ⟨text :: texts, ?_, scanLinks_append.mpr ⟨mid, hlinks, h⟩⟩
      rw [List.map_cons, List.map_cons, orError_eq_ok_iff.mp htext, htexts]
    · rintro ⟨texts, htexts, h⟩
      cases texts with
      | nil => cases htexts
      | cons text texts =>
        obtain ⟨htext, htexts⟩ := List.cons.inj htexts
        obtain ⟨mid, hlinks, h⟩ := scanLinks_append.mp h
        exact ⟨text, orError_eq_ok_iff.mpr htext, bind_eq_ok_iff.mpr
          ⟨mid, hlinks, ih.mpr ⟨texts, htexts, h⟩⟩⟩

end

/-- A response names a next page or none exactly if its links can all be read, and the one
to a next page, if there is one, leads to the page behind this one of the same list. -/
theorem hasNextPage_eq_ok_iff {W : Web} {r : Response} {endpoint : Text} {page : Nat}
    {next : Bool} :
    hasNextPage W r endpoint page = .ok next ↔
      ∃ (expected : Uri) (suffix : Text) (texts : List Text) (links : List (Text × Text)),
        expectedUri W endpoint = .ok (expected, suffix) ∧
        (r.getAll "link".toList).map headerText = texts.map some ∧
        (texts.flatMap (·.splitOn ',')).map linkParts = links.map Except.ok ∧
        (nextTargets links).length = next.toNat ∧
        ∀ target ∈ nextTargets links, ∃ uri, NextPage W expected suffix page target uri := by
  unfold hasNextPage
  rw [bind_eq_ok_iff]
  constructor
  · rintro ⟨⟨expected, suffix⟩, hexpected, h⟩
    obtain ⟨texts, htexts, h⟩ := scanHeaders_eq_ok_iff.mp h
    obtain ⟨links, hread, honce, hfollow⟩ := scanLinks_eq_ok_iff.mp h
    rw [Bool.toNat_false, Nat.zero_add] at honce
    exact ⟨expected, suffix, texts, links, hexpected, htexts, hread, honce, hfollow⟩
  · rintro ⟨expected, suffix, texts, links, hexpected, htexts, hread, honce, hfollow⟩
    refine ⟨(expected, suffix), hexpected, scanHeaders_eq_ok_iff.mpr ⟨texts, htexts,
      scanLinks_eq_ok_iff.mpr ⟨links, hread, ?_, hfollow⟩⟩⟩
    rw [Bool.toNat_false, Nat.zero_add, honce]

end GithubKeys
end YamlSigil
