/-
What a lookup of an account finds.

Whatever comes back over the network, the requests are the pages of the two lists of the
account, one after the other.  A lookup that succeeds has read every page of both lists to
its end, up to one that names no next page, and all of their keys are candidates.
-/
import YamlSigil.GithubKeys.Links

namespace YamlSigil
namespace GithubKeys

open YamlSigil.Core Verification Control Format.SemVer Release

/-! ## Lines -/

/-- A key is one line, and no comment. -/
structure OneLine (key : Text) : Prop where
  not_blank : trim key ≠ []
  no_lf : '\n' ∉ key
  no_cr : '\r' ∉ key
  no_comment : (trimStart key).head? ≠ some '#'

theorem OneLine.ne_nil {key : Text} (h : OneLine key) : key ≠ [] := by
  rintro rfl
  exact h.not_blank rfl

/-- A page that was read to its end. -/
structure PageRead (W : Web) (r : Response) (remaining : Nat) (keys : List Text)
    (remaining' : Nat) : Prop where
  json : isJson r = true
  whole : r.body.fails = false
  bytes : r.body.bytes.length + remaining' = remaining
  records : W.records r.body.bytes = some (keys.map some)
  lines : ∀ key ∈ keys, OneLine key

abbrev Exchange := Text × Except KeyError Response

/-- The exchanges read a list from `page` to its end. -/
inductive Listing (W : Web) (endpoint : Text) :
    (page remaining : Nat) → List Exchange → List Text → Nat → Prop
  | last {page remaining remaining' : Nat} {r : Response} {keys : List Text}
      (hstatus : checkStatus W r = .ok ())
      (hnext : hasNextPage W r endpoint page = .ok false)
      (hread : PageRead W r remaining keys remaining') :
      Listing W endpoint page remaining [(pageUrl endpoint page, .ok r)] keys remaining'
  | more {page remaining remaining' remaining'' : Nat} {r : Response} {keys others : List Text}
      {rest : List Exchange} (hstatus : checkStatus W r = .ok ())
      (hnext : hasNextPage W r endpoint page = .ok true)
      (hread : PageRead W r remaining keys remaining')
      (hrest : Listing W endpoint (page + 1) remaining' rest others remaining'') :
      Listing W endpoint page remaining ((pageUrl endpoint page, .ok r) :: rest)
        (keys ++ others) remaining''

/-- The requests go from page to page as each names the next, from `page` on, and are no
more than `left`. -/
inductive Asked (W : Web) (endpoint : Text) : (left page : Nat) → List Exchange → Prop
  | nil (left page : Nat) : Asked W endpoint left page []
  | one (left page : Nat) (answer : Except KeyError Response) :
      Asked W endpoint (left + 1) page [(pageUrl endpoint page, answer)]
  | more {left page : Nat} {r : Response} {rest : List Exchange}
      (hstatus : checkStatus W r = .ok ()) (hnext : hasNextPage W r endpoint page = .ok true)
      (hrest : Asked W endpoint left (page + 1) rest) :
      Asked W endpoint (left + 1) page ((pageUrl endpoint page, .ok r) :: rest)

section
variable {W : Web} {endpoint : Text} {α β : Type} {guarantee : List Exchange → Prop}

/-- The page of a request, behind `page` and less than `left` pages away. -/
theorem Asked.own {left page : Nat} {answers : List Exchange}
    (h : Asked W endpoint left page answers) :
    ∀ e ∈ answers, ∃ number, page ≤ number ∧ number < page + left ∧
      e.1 = pageUrl endpoint number := by
  induction h with
  | nil left page => exact fun e he => (List.not_mem_nil he).elim
  | one left page answer =>
    intro e he
    rw [List.mem_singleton.mp he]
    exact ⟨page, le_refl _, by omega, rfl⟩
  | more hstatus hnext hrest ih =>
    intro e he
    rcases List.mem_cons.mp he with rfl | he
    · exact ⟨_, le_refl _, by omega, rfl⟩
    · obtain ⟨number, hle, hlt, heq⟩ := ih e he
      exact ⟨number, by omega, by omega, heq⟩

theorem Asked.length_le {left page : Nat} {answers : List Exchange}
    (h : Asked W endpoint left page answers) : answers.length ≤ left := by
  induction h with
  | nil left page => exact Nat.zero_le _
  | one left page answer => exact Nat.le_add_left 1 left
  | more hstatus hnext hrest ih => exact Nat.succ_le_succ ih

/-- The octets of the body of an answer. -/
def bodyBytes (e : Exchange) : Nat :=
  match e.2 with
  | .ok r => r.body.bytes.length
  | .error _ => 0

theorem Listing.bytes {page remaining remaining' : Nat} {answers : List Exchange}
    {keys : List Text} (h : Listing W endpoint page remaining answers keys remaining') :
    (answers.map bodyBytes).sum + remaining' = remaining := by
  induction h with
  | last hstatus hnext hread =>
    simp only [List.map_cons, List.map_nil, List.sum_cons, List.sum_nil, bodyBytes]
    exact hread.bytes
  | more hstatus hnext hread hrest ih =>
    have := hread.bytes
    simp only [List.map_cons, List.sum_cons, bodyBytes]
    omega

end

/-! ## Candidates of a list -/

section
variable {C : KeyCrypto} {S : Ssh}

/-- A key is read as this candidate, or as none when it is of another form. -/
def Reads (C : KeyCrypto) (S : Ssh) (key : Text) (c : Option (Candidate C S)) : Prop :=
  ∃ publicKey, S.fromOpenssh (trim key) = .ok publicKey ∧
    Candidate.fromPublic C S publicKey = .ok c

theorem withContext_eq_ok_iff {α : Type} {text : Text} {r : Except KeyError α} {a : α} :
    withContext text r = .ok a ↔ r = .ok a := by
  cases r with
  | error e => exact iff_of_false (fun h => by cases h) (fun h => by cases h)
  | ok b => exact Iff.rfl

theorem head?_trim {t : Text} (h : trim t ≠ []) : (trim t).head? = (trimStart t).head? := by
  have hprefix : trim t <+: trimStart t := by
    rw [← List.reverse_suffix]
    unfold trim
    rw [List.reverse_reverse]
    exact List.dropWhile_suffix _
  obtain ⟨rest, hrest⟩ := hprefix
  rw [← hrest, List.head?_append_of_ne_nil _ h]

theorem parseLine_eq_ok_iff {index : Nat} {key : Text} {c : Option (Candidate C S)}
    (hkey : OneLine key) : parseLine C S index key = .ok c ↔ Reads C S key c := by
  have hline : ¬(trim key = [] ∨ (trim key).head? = some '#') := by
    rw [head?_trim hkey.not_blank]
    exact not_or.mpr ⟨hkey.not_blank, hkey.no_comment⟩
  unfold parseLine Reads
  dsimp only
  rw [if_neg hline]
  cases S.fromOpenssh (trim key) with
  | error e =>
    refine iff_of_false (fun h => by cases h) ?_
    rintro ⟨_, h, -⟩
    cases h
  | ok publicKey =>
    rw [withContext_eq_ok_iff]
    constructor
    · intro h
      exact ⟨publicKey, rfl, h⟩
    · rintro ⟨_, heq, h⟩
      cases heq
      exact h

/-- All of the keys are read, and the candidates are theirs. -/
theorem LinesHold.reads {index : Nat} {keys : List Text} {cs : List (Candidate C S)}
    (h : LinesHold C S index keys cs) (hkeys : ∀ key ∈ keys, OneLine key) :
    (∀ key ∈ keys, ∃ c, Reads C S key c ∧ ∀ a, c = some a → a ∈ cs) ∧
      ∀ c ∈ cs, ∃ key ∈ keys, Reads C S key (some c) := by
  induction h with
  | nil index => exact ⟨fun _ h => (List.not_mem_nil h).elim, fun _ h => (List.not_mem_nil h).elim⟩
  | skip hline hrest ih =>
    obtain ⟨hkey, hkeys⟩ := List.forall_mem_cons.mp hkeys
    obtain ⟨hread, hown⟩ := ih hkeys
    refine ⟨List.forall_mem_cons.mpr ⟨⟨none, (parseLine_eq_ok_iff hkey).mp hline,
      fun a h => by cases h⟩, hread⟩, fun c hc => ?_⟩
    obtain ⟨key, hmem, h⟩ := hown c hc
    exact ⟨key, List.mem_cons_of_mem _ hmem, h⟩
  | key hline hrest ih =>
    obtain ⟨hkey, hkeys⟩ := List.forall_mem_cons.mp hkeys
    obtain ⟨hread, hown⟩ := ih hkeys
    have hfirst := (parseLine_eq_ok_iff hkey).mp hline
    refine ⟨List.forall_mem_cons.mpr ⟨⟨_, hfirst, fun a h => ?_⟩, fun key hmem => ?_⟩,
      List.forall_mem_cons.mpr ⟨⟨_, List.mem_cons_self, hfirst⟩, fun c hc => ?_⟩⟩
    · cases h
      exact List.mem_cons_self
    · obtain ⟨c, hc, h⟩ := hread key hmem
      exact ⟨c, hc, fun a ha => List.mem_cons_of_mem _ (h a ha)⟩
    · obtain ⟨key, hmem, h⟩ := hown c hc
      exact ⟨key, List.mem_cons_of_mem _ hmem, h⟩

theorem Reads.unique {key : Text} {c c' : Option (Candidate C S)} (h : Reads C S key c)
    (h' : Reads C S key c') : c = c' := by
  obtain ⟨publicKey, hkey, hc⟩ := h
  obtain ⟨publicKey', hkey', hc'⟩ := h'
  rw [hkey] at hkey'
  cases hkey'
  exact Except.ok.inj (hc.symm.trans hc')

/-- All keys of the lists are read, their candidates are there, and no others. -/
structure Gathers (C : KeyCrypto) (S : Ssh) (lists : List (Text × List Text))
    (candidates : List (Candidate C S)) : Prop where
  read : ∀ list ∈ lists, ∀ key ∈ list.2, ∃ c, Reads C S key c
  all : ∀ list ∈ lists, ∀ key ∈ list.2, ∀ c, Reads C S key (some c) →
    ∃ c' ∈ candidates, c'.octets = c.octets
  own : ∀ c ∈ candidates, ∃ list ∈ lists, ∃ key ∈ list.2, ∃ c', Reads C S key (some c') ∧
    c = c'.withSource list.1

/-- Of equal candidates the first is kept. -/
theorem Gathers.pushAll {lists : List (Text × List Text)} {candidates : List (Candidate C S)}
    (h : Gathers C S lists candidates) :
    Gathers C S lists (pushAll Candidate.octets [] candidates) where
  read := h.read
  all := by
    intro list hlist key hkey c hc
    obtain ⟨c', hmem, heq⟩ := h.all list hlist key hkey c hc
    obtain ⟨b, hb, heq'⟩ : ∃ b ∈ GithubKeys.pushAll Candidate.octets [] candidates,
      b.octets = c'.octets := exists_mem_pushAll hmem
    exact ⟨b, hb, heq'.trans heq⟩
  own := fun c hc => h.own c ((mem_pushAll hc).resolve_left List.not_mem_nil)

/-! ## Lookups -/

/-- The exchanges read the lists of `endpoints`, one after the other and to their ends. -/
inductive Lists (W : Web) :
    List Text → Nat → List Exchange → List (Text × List Text) → Prop
  | nil (remaining : Nat) : Lists W [] remaining [] []
  | cons {endpoint : Text} {rest keys : List Text} {remaining remaining' : Nat}
      {answers others : List Exchange} {lists : List (Text × List Text)}
      (hlisting : Listing W endpoint 1 remaining answers keys remaining')
      (hrest : Lists W rest remaining' others lists) :
      Lists W (endpoint :: rest) remaining (answers ++ others) ((endpoint, keys) :: lists)

/-- The requests for a list begin when the lists before it are read. -/
inductive Requested (W : Web) : List Text → Nat → List Exchange → Prop
  | nil (endpoints : List Text) (remaining : Nat) : Requested W endpoints remaining []
  | within {endpoint : Text} {rest : List Text} {remaining : Nat} {answers : List Exchange}
      (hasked : Asked W endpoint maxPagesPerResource 1 answers) :
      Requested W (endpoint :: rest) remaining answers
  | behind {endpoint : Text} {rest keys : List Text} {remaining remaining' : Nat}
      {answers others : List Exchange} (hasked : Asked W endpoint maxPagesPerResource 1 answers)
      (hlisting : Listing W endpoint 1 remaining answers keys remaining')
      (hrest : Requested W rest remaining' others) :
      Requested W (endpoint :: rest) remaining (answers ++ others)

variable {W : Web} {guarantee : List Exchange → Prop}

theorem Requested.length_le {endpoints : List Text} {remaining : Nat} {answers : List Exchange}
    (h : Requested W endpoints remaining answers) :
    answers.length ≤ endpoints.length * maxPagesPerResource := by
  induction h with
  | nil endpoints remaining => exact Nat.zero_le _
  | within hasked =>
    have := hasked.length_le
    rw [List.length_cons, Nat.add_mul]
    omega
  | behind hasked hlisting hrest ih =>
    have := hasked.length_le
    rw [List.length_cons, List.length_append, Nat.add_mul]
    omega

/-- Only the first pages of the lists are asked for. -/
theorem Requested.own {endpoints : List Text} {remaining : Nat} {answers : List Exchange}
    (h : Requested W endpoints remaining answers) :
    ∀ e ∈ answers, ∃ endpoint ∈ endpoints, ∃ page, 1 ≤ page ∧ page ≤ maxPagesPerResource ∧
      e.1 = pageUrl endpoint page := by
  induction h with
  | nil endpoints remaining => exact fun e he => (List.not_mem_nil he).elim
  | within hasked =>
    intro e he
    obtain ⟨page, hle, hlt, heq⟩ := hasked.own e he
    exact ⟨_, List.mem_cons_self, page, hle, by omega, heq⟩
  | behind hasked hlisting hrest ih =>
    intro e he
    rcases List.mem_append.mp he with he | he
    · obtain ⟨page, hle, hlt, heq⟩ := hasked.own e he
      exact ⟨_, List.mem_cons_self, page, hle, by omega, heq⟩
    · obtain ⟨endpoint, hmem, h⟩ := ih e he
      exact ⟨endpoint, List.mem_cons_of_mem _ hmem, h⟩

theorem Lists.bytes {endpoints : List Text} {remaining : Nat} {answers : List Exchange}
    {lists : List (Text × List Text)} (h : Lists W endpoints remaining answers lists) :
    (answers.map bodyBytes).sum ≤ remaining := by
  induction h with
  | nil remaining => exact Nat.zero_le _
  | cons hlisting hrest ih =>
    have := hlisting.bytes
    rw [List.map_append, List.sum_append]
    omega

end

end GithubKeys
end YamlSigil
