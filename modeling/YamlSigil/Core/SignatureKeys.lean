/-
The scan for top-level keys.

The scan looks at one line after another and knows nothing of YAML but the key
in front of the first colon.  On the lines that the serializer emits it finds
the emitted keys.
-/
import Mathlib.Data.Finset.Insert
import Mathlib.Data.Finset.Dedup
import Mathlib.Data.List.TakeWhile
import YamlSigil.Core.SignatureDoc

namespace YamlSigil
namespace Core

open Format

/-! ## Strings of the standard library -/

/-- `char::is_whitespace`. -/
def isWhitespace (c : Char) : Bool :=
  (0x09 ≤ c.toNat && c.toNat ≤ 0x0D) || (0x2000 ≤ c.toNat && c.toNat ≤ 0x200A) ||
    [0x20, 0x85, 0xA0, 0x1680, 0x2028, 0x2029, 0x202F, 0x205F, 0x3000].contains c.toNat

def trimStart (t : Text) : Text := t.dropWhile isWhitespace

def trim (t : Text) : Text := ((trimStart t).reverse.dropWhile isWhitespace).reverse

/-- The text in front of the first `d`, and the text behind it. -/
def splitOnce (d : Char) (t : Text) : Option (Text × Text) :=
  match t.dropWhile (· ≠ d) with
  | [] => none
  | _ :: rest => some (t.takeWhile (· ≠ d), rest)

/-- `str::lines`: a carriage return in front of a line feed belongs to the line end. -/
def strLines (t : Text) : List Text :=
  (Yaml.splitLines t).1.map (fun line => if line.getLast? = some '\r' then line.dropLast else line) ++
    if (Yaml.splitLines t).2.isEmpty then [] else [(Yaml.splitLines t).2]

/-! ## The scan -/

def signatureKeyMaxScalarBytes : Nat := 8 * 1024

/-- The policy for one key. -/
def signatureKeyDecoderConfig : ParserConfig where
  maxDocumentLength := some signatureDocumentMaxBytes
  maxDepth := some 1
  maxAliasExpansions := some signatureDocumentMaxAliasExpansions
  maxMappingKeys := some 0
  maxSequenceLength := some 0
  maxEvents := some 8
  maxNodes := some 1
  maxTotalScalarBytes := some signatureKeyMaxScalarBytes
  maxDocuments := some 1
  maxMergeKeys := some 0
  policies := [.denyAnchors, .denyTags]

section
variable (N : Noyalib)

/-- The key that one line adds. -/
def lineKey (line : Text) : Option Text :=
  let trimmed := trimStart line
  if trimmed.isEmpty || ['#'].isPrefixOf trimmed then none
  else if [' '].isPrefixOf line || ['\t'].isPrefixOf line then none
  else
    match splitOnce ':' trimmed with
    | none => none
    | some (key, _) =>
      let key := trim key
      if key.isEmpty then none
      else
        match N.stringFromStr signatureKeyDecoderConfig key with
        | .ok semanticKey => some semanticKey
        | .error _ => some key

def insertLineKey (keys : Finset Text) (line : Text) : Finset Text :=
  match lineKey N line with
  | some key => insert key keys
  | none => keys

def topLevelKeysFlatLineScan (text : Text) : Finset Text :=
  (strLines text).foldl (insertLineKey N) ∅

/-- Enumerate the top-level keys of a signature document. -/
def signatureDocumentTopLevelKeys (bytes : Bytes) : Except CoreError (Finset Text) :=
  match ensureSignatureDocumentByteBudget bytes with
  | .error e => .error e
  | .ok () =>
    match fromUtf8 bytes with
    | none => .error .invalidUtf8
    | some text => .ok (topLevelKeysFlatLineScan N text)

/-! ## What the scan finds -/

theorem mem_foldl_insertLineKey {k : Text} {ls : List Text} {keys : Finset Text} :
    k ∈ ls.foldl (insertLineKey N) keys ↔ k ∈ keys ∨ ∃ line ∈ ls, lineKey N line = some k := by
  induction ls generalizing keys with
  | nil => simp
  | cons l ls ih =>
    have hstep : k ∈ insertLineKey N keys l ↔ k ∈ keys ∨ lineKey N l = some k := by
      unfold insertLineKey
      cases lineKey N l with
      | none => simp
      | some key =>
        simp only [Finset.mem_insert, Option.some.injEq]
        exact ⟨fun h => h.symm.imp id Eq.symm, fun h => h.symm.imp Eq.symm id⟩
    rw [List.foldl_cons, ih, hstep, or_assoc]
    simp only [List.mem_cons, exists_eq_or_imp]

/-- The keys are those of the lines, in whatever order they come. -/
theorem mem_topLevelKeysFlatLineScan {k text : Text} :
    k ∈ topLevelKeysFlatLineScan N text ↔ ∃ line ∈ strLines text, lineKey N line = some k := by
  unfold topLevelKeysFlatLineScan
  rw [mem_foldl_insertLineKey]
  simp

theorem signatureDocumentTopLevelKeys_asBytes {text : Text}
    (h : (asBytes text).length ≤ signatureDocumentMaxBytes) :
    signatureDocumentTopLevelKeys N (asBytes text) = .ok (topLevelKeysFlatLineScan N text) := by
  unfold signatureDocumentTopLevelKeys ensureSignatureDocumentByteBudget
  rw [if_neg (Nat.not_lt.mpr h), fromUtf8_eq_some_iff.mpr rfl]

end

/-! ## Lines of a mapping -/

theorem strLines_unlines {ls : List Text} (hlf : ∀ l ∈ ls, '\n' ∉ l) (hcr : ∀ l ∈ ls, '\r' ∉ l) :
    strLines (Yaml.unlines ls) = ls := by
  unfold strLines
  rw [Yaml.splitLines_unlines hlf]
  show ls.map _ ++ [] = ls
  rw [List.append_nil]
  calc ls.map _ = ls.map id := List.map_congr_left fun l hl =>
        if_neg fun h => hcr l hl (List.mem_of_getLast? h)
    _ = ls := List.map_id ls

/-- Reading a plain string as a string gives it back. -/
def Noyalib.ReadsPlain (N : Noyalib) : Prop :=
  ∀ {t s}, Yaml.isPlainString t = true →
    N.stringFromStr signatureKeyDecoderConfig t = .ok s → s = t

theorem Reference.noyalib_readsPlain : Reference.noyalib.ReadsPlain := by
  intro t s ht h
  have h : (if Yaml.isPlainString t then Except.ok t else .error []) = .ok s := h
  rw [if_pos ht] at h
  exact (Except.ok.inj h).symm

theorem isPlainChar_ascii {c : Char} (h : Yaml.isPlainChar c = true) :
    ¬ Yaml.IsControl c ∧ isWhitespace c = false ∧ c ≠ '#' ∧ c ≠ ' ' ∧ c ≠ '\t' := by
  have hall : ∀ n < 128, Yaml.isPlainChar (Char.ofNat n) = true →
      ¬ Yaml.IsControl (Char.ofNat n) ∧ isWhitespace (Char.ofNat n) = false ∧
        Char.ofNat n ≠ '#' ∧ Char.ofNat n ≠ ' ' ∧ Char.ofNat n ≠ '\t' := by decide
  have hc := hall c.toNat (Yaml.toNat_lt_of_isPlainChar h)
  rw [Char.ofNat_toNat] at hc
  exact hc h

theorem dropWhile_of_forall {p : Char → Bool} {t : Text} (h : ∀ c ∈ t, p c = false) :
    t.dropWhile p = t := by
  cases t with
  | nil => rfl
  | cons c t =>
    refine List.dropWhile_cons_of_neg ?_
    rw [h c (by simp)]
    exact Bool.false_ne_true

theorem trim_of_forall {t : Text} (h : ∀ c ∈ t, isWhitespace c = false) : trim t = t := by
  unfold trim trimStart
  rw [dropWhile_of_forall h, dropWhile_of_forall fun c hc => h c (List.mem_reverse.mp hc),
    List.reverse_reverse]

/-- The text in front of the first `d` has none. -/
theorem splitOnce_eq_some_iff {d : Char} {t front behind : Text} :
    splitOnce d t = some (front, behind) ↔ t = front ++ d :: behind ∧ d ∉ front := by
  constructor
  · intro h
    have hsplit : t.takeWhile (· ≠ d) ++ t.dropWhile (· ≠ d) = t := List.takeWhile_append_dropWhile
    unfold splitOnce at h
    cases hdrop : t.dropWhile (· ≠ d) with
    | nil =>
      rw [hdrop] at h
      cases h
    | cons c rest =>
      have hhead := List.head?_dropWhile_not (· ≠ d) t
      rw [hdrop] at h hsplit hhead
      cases h
      have hc : c = d := by simpa using hhead
      subst hc
      refine ⟨hsplit.symm, fun hmem => ?_⟩
      simpa using List.mem_takeWhile_imp hmem
  · rintro ⟨rfl, hd⟩
    have hne : ∀ c ∈ front, decide (c ≠ d) = true := by
      intro c hc
      exact decide_eq_true fun e => hd (e ▸ hc)
    unfold splitOnce
    rw [List.dropWhile_append_of_pos hne, List.takeWhile_append_of_pos hne]
    simp

theorem splitOnce_entryLine {key scalar : Text} (h : ∀ c ∈ key, c ≠ ':') :
    splitOnce ':' (Yaml.entryLine key scalar) = some (key, ' ' :: scalar) := by
  have hne : ∀ c ∈ key, decide (c ≠ ':') = true := fun c hc => decide_eq_true (h c hc)
  unfold splitOnce Yaml.entryLine
  rw [List.takeWhile_append_of_pos hne, List.dropWhile_append_of_pos hne]
  simp

/-- On an entry the scan finds the key, whether or not the decoder reads it. -/
theorem lineKey_entryLine {N : Noyalib} (hN : N.ReadsPlain) {key : Text}
    (hk : Yaml.isPlainString key = true) (scalar : Text) :
    lineKey N (Yaml.entryLine key scalar) = some key := by
  have hplain : ∀ c ∈ key, Yaml.isPlainChar c = true := Yaml.isPlainChar_of_isPlainString hk
  have htrim : trim key = key := trim_of_forall fun c hc => (isPlainChar_ascii (hplain c hc)).2.1
  have hsplit : splitOnce ':' (Yaml.entryLine key scalar) = some (key, ' ' :: scalar) :=
    splitOnce_entryLine fun c hc => Yaml.ne_colon_of_isPlainChar (hplain c hc)
  obtain ⟨c, t, hct⟩ : ∃ c t, key = c :: t := by
    cases key with
    | nil => exact absurd hk (by decide)
    | cons c t => exact ⟨c, t, rfl⟩
  have hc : Yaml.isPlainChar c = true := hplain c (by rw [hct]; simp)
  obtain ⟨-, hspace, hhash, hblank, htab⟩ := isPlainChar_ascii hc
  have hline : Yaml.entryLine key scalar = c :: Yaml.entryLine t scalar := by
    rw [hct]
    rfl
  have hstart : trimStart (Yaml.entryLine key scalar) = Yaml.entryLine key scalar := by
    unfold trimStart
    rw [hline]
    refine List.dropWhile_cons_of_neg ?_
    rw [hspace]
    exact Bool.false_ne_true
  have hprefix : ∀ d, c ≠ d → [d].isPrefixOf (Yaml.entryLine key scalar) = false := by
    intro d hd
    rw [hline]
    show (d == c && List.isPrefixOf [] _) = false
    rw [beq_false_of_ne hd.symm, Bool.false_and]
  have hempty : (Yaml.entryLine key scalar).isEmpty = false := by
    rw [hline]
    rfl
  have hkey : key.isEmpty = false := by
    rw [hct]
    rfl
  unfold lineKey
  simp only [hstart, hempty, hprefix _ hhash, hprefix _ hblank, hprefix _ htab, hsplit, htrim, hkey,
    Bool.or_self, Bool.false_eq_true, if_false]
  cases hs : N.stringFromStr signatureKeyDecoderConfig key with
  | error e => rfl
  | ok s => rw [hN hk hs]

end Core
end YamlSigil
