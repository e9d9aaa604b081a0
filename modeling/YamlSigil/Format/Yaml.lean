/-
A reader for flat YAML 1.2 block mappings.

The texts read here are a fragment of YAML 1.2 that needs no indentation, no
flow collections, no comments and no folding: one entry a line, a plain key, a
colon and a space, and a value that is a plain scalar of the core schema's
string type or a double-quoted scalar on one line.  Inside the fragment the
reader follows the specification (escapes of section 5.7, core schema of
section 10.3, implicit keys of at most 1,024 characters); outside it the reader
gives no answer.
-/
import Mathlib.Data.List.Basic
import Mathlib.Algebra.Ring.Nat

namespace YamlSigil
namespace Format
namespace Yaml

/-! ## Plain scalars and the core schema -/

inductive Tag where
  | null | bool | int | float | str
deriving Repr, DecidableEq

def isOctDigit (c : Char) : Bool := '0' ≤ c && c ≤ '7'

def isHexDigit (c : Char) : Bool :=
  c.isDigit || ('a' ≤ c && c ≤ 'f') || ('A' ≤ c && c ≤ 'F')

def isDigits (t : List Char) : Bool := !t.isEmpty && t.all Char.isDigit

def dropSign : List Char → List Char
  | '-' :: t => t
  | '+' :: t => t
  | t => t

def isNull (t : List Char) : Bool :=
  t.isEmpty || ["~".toList, "null".toList, "Null".toList, "NULL".toList].contains t

def isBool (t : List Char) : Bool :=
  ["true".toList, "True".toList, "TRUE".toList, "false".toList, "False".toList,
    "FALSE".toList].contains t

def isInt : List Char → Bool
  | '0' :: 'o' :: t => !t.isEmpty && t.all isOctDigit
  | '0' :: 'x' :: t => !t.isEmpty && t.all isHexDigit
  | t => isDigits (dropSign t)

def isExponent : List Char → Bool
  | [] => true
  | 'e' :: t => isDigits (dropSign t)
  | 'E' :: t => isDigits (dropSign t)
  | _ => false

def isFloat (t : List Char) : Bool :=
  let u := dropSign t
  let whole := u.takeWhile Char.isDigit
  let rest := u.dropWhile Char.isDigit
  [".inf".toList, ".Inf".toList, ".INF".toList].contains u ||
    [".nan".toList, ".NaN".toList, ".NAN".toList].contains t ||
    match rest with
    | '.' :: r =>
      let fraction := r.takeWhile Char.isDigit
      (!whole.isEmpty || !fraction.isEmpty) && isExponent (r.dropWhile Char.isDigit)
    | r => !whole.isEmpty && isExponent r

/-- The type the core schema gives a plain scalar. -/
def resolve (t : List Char) : Tag :=
  if isNull t then .null
  else if isBool t then .bool
  else if isInt t then .int
  else if isFloat t then .float
  else .str

/-- The characters of the plain scalars read here.  None of them is an indicator
at the start of a scalar, except a lone `-`. -/
def isPlainChar (c : Char) : Bool := c.isAlphanum || c = '_' || c = '-' || c = '.'

/-- A plain scalar that the core schema leaves a string. -/
def isPlainString (t : List Char) : Bool :=
  !t.isEmpty && t.all isPlainChar && t != ['-'] && resolve t == .str

theorem isPlainChar_of_isPlainString {t : List Char} (h : isPlainString t = true) :
    ∀ c ∈ t, isPlainChar c = true := by
  simp only [isPlainString, Bool.and_eq_true, List.all_eq_true] at h
  exact h.1.1.2

theorem toNat_lt_of_isPlainChar {c : Char} (h : isPlainChar c = true) : c.toNat < 128 := by
  have hranges : (decide ('A'.val ≤ c.val ∧ c.val ≤ 'Z'.val) ||
      (decide ('a'.val ≤ c.val) && decide (c.val ≤ 'z'.val)) ||
      (decide ('0'.val ≤ c.val) && decide (c.val ≤ '9'.val)) ||
      c = '_' || c = '-' || c = '.') = true := h
  simp only [Bool.or_eq_true, Bool.and_eq_true, decide_eq_true_eq,
    UInt32.le_iff_toNat_le] at hranges
  have hval : c.toNat = c.val.toNat := rfl
  rcases hranges with ((((h | h) | h) | h) | h) | h
  · exact hval ▸ Nat.lt_of_le_of_lt h.2 (by decide)
  · exact hval ▸ Nat.lt_of_le_of_lt h.2 (by decide)
  · exact hval ▸ Nat.lt_of_le_of_lt h.2 (by decide)
  all_goals
    rw [h]
    decide

/-! ## Double-quoted scalars -/

def escape? : Char → Option Char
  | '0' => some '\x00'
  | 'a' => some '\x07'
  | 'b' => some '\x08'
  | 't' => some '\t'
  | '\t' => some '\t'
  | 'n' => some '\n'
  | 'v' => some '\x0b'
  | 'f' => some '\x0c'
  | 'r' => some '\r'
  | 'e' => some '\x1b'
  | ' ' => some ' '
  | '"' => some '"'
  | '/' => some '/'
  | '\\' => some '\\'
  | 'N' => some '\u0085'
  | '_' => some '\u00a0'
  | 'L' => some '\u2028'
  | 'P' => some '\u2029'
  | _ => none

def hexDigit? (c : Char) : Option Nat :=
  if '0' ≤ c ∧ c ≤ '9' then some (c.toNat - 48)
  else if 'a' ≤ c ∧ c ≤ 'f' then some (c.toNat - 87)
  else if 'A' ≤ c ∧ c ≤ 'F' then some (c.toNat - 55)
  else none

def hexValue (t : List Char) : Option Nat :=
  t.foldlM (fun v c => (hexDigit? c).map (16 * v + ·)) 0

/-- The character named by the `n` hexadecimal digits at the front of `t`. -/
def readHex (n : Nat) (t : List Char) : Option (Char × List Char) :=
  if t.length < n then none
  else
    (hexValue (t.take n)).bind fun v =>
      if v.isValidChar then some (Char.ofNat v, t.drop n) else none

def readEscape : List Char → Option (Char × List Char)
  | 'x' :: t => readHex 2 t
  | 'u' :: t => readHex 4 t
  | 'U' :: t => readHex 8 t
  | e :: t => (escape? e).map (·, t)
  | [] => none

/-- What may stand unescaped between the quotes: tab, and everything from space
on. -/
def isInteriorChar (c : Char) : Bool := c = '\t' || 0x20 ≤ c.toNat

/-- The first character of a quoted interior. -/
def readChar : List Char → Option (Char × List Char)
  | '\\' :: t => readEscape t
  | c :: t => if isInteriorChar c then some (c, t) else none
  | [] => none

/-- The interior in front of the closing quote, which must end the text.  The
fuel bounds the number of characters. -/
def readInterior : Nat → List Char → Option (List Char)
  | 0, _ => none
  | _ + 1, '"' :: t => if t.isEmpty then some [] else none
  | n + 1, t => (readChar t).bind fun p => (readInterior n p.2).map (p.1 :: ·)

/-- The scalar whose opening quote has been read. -/
def readQuoted (t : List Char) : Option (List Char) := readInterior t.length t

/-- The text `q` spells the one character `c` inside quotes. -/
structure Spells (q : List Char) (c : Char) : Prop where
  ne_nil : q ≠ []
  not_quote : ∀ t, q ≠ '"' :: t
  read : ∀ t, readChar (q ++ t) = some (c, t)

theorem spells_self {c : Char} (hq : c ≠ '"') (hb : c ≠ '\\') (h : isInteriorChar c = true) :
    Spells [c] c where
  ne_nil := List.cons_ne_nil c []
  not_quote := by
    intro t e
    cases e
    exact hq rfl
  read := by
    intro t
    rw [List.singleton_append, readChar.eq_2 _ _ (fun e => hb e), if_pos h]

theorem spells_escape {q : List Char} {c : Char}
    (h : ∀ t, readEscape (q ++ t) = some (c, t)) : Spells ('\\' :: q) c where
  ne_nil := List.cons_ne_nil _ q
  not_quote := by
    intro t e
    injection e with e _
    exact absurd e (by decide)
  read := h

theorem readInterior_append {n : Nat} {q t : List Char} {c : Char} (h : Spells q c) :
    readInterior (n + 1) (q ++ t) = (readInterior n t).map (c :: ·) := by
  have hne : ∀ s, q ++ t ≠ '"' :: s := by
    intro s e
    cases q with
    | nil => exact h.ne_nil rfl
    | cons d q =>
      rw [List.cons_append, List.cons.injEq] at e
      exact h.not_quote q (by rw [e.1])
  rw [readInterior.eq_3 _ _ hne, h.read]
  rfl

/-- A text whose characters are spelled one by one is read back. -/
theorem readInterior_flatMap {q : Char → List Char} {s : List Char}
    (h : ∀ c ∈ s, Spells (q c) c) {n : Nat} (hn : s.length < n) :
    readInterior n (s.flatMap q ++ ['"']) = some s := by
  induction s generalizing n with
  | nil =>
    obtain ⟨m, rfl⟩ := Nat.exists_eq_succ_of_ne_zero (Nat.ne_of_gt hn)
    rfl
  | cons c s ih =>
    obtain ⟨m, rfl⟩ := Nat.exists_eq_succ_of_ne_zero (Nat.ne_of_gt (Nat.zero_lt_of_lt hn))
    rw [List.flatMap_cons, List.append_assoc, readInterior_append (h c (by simp)),
      ih (fun d hd => h d (by simp [hd])) (by simpa using hn)]
    rfl

theorem length_le_flatMap {q : Char → List Char} {s : List Char}
    (h : ∀ c ∈ s, q c ≠ []) : s.length ≤ (s.flatMap q).length := by
  induction s with
  | nil => exact Nat.le_refl 0
  | cons c s ih =>
    rw [List.flatMap_cons, List.length_append, List.length_cons]
    have := ih fun d hd => h d (by simp [hd])
    have := List.length_pos_of_ne_nil (h c (by simp))
    omega

theorem readQuoted_flatMap {q : Char → List Char} {s : List Char}
    (h : ∀ c ∈ s, Spells (q c) c) : readQuoted (s.flatMap q ++ ['"']) = some s := by
  refine readInterior_flatMap h ?_
  have := length_le_flatMap fun c hc => (h c hc).ne_nil
  rw [List.length_append, List.length_singleton]
  omega

/-- C0 and C1 controls, delete, and the line and paragraph separators. -/
def IsControl (c : Char) : Prop :=
  c.toNat < 0x20 ∨ (0x7F ≤ c.toNat ∧ c.toNat ≤ 0x9F) ∨ c.toNat = 0x2028 ∨ c.toNat = 0x2029

instance (c : Char) : Decidable (IsControl c) := inferInstanceAs (Decidable (_ ∨ _ ∨ _ ∨ _))

/-- What may stand between the quotes of a scalar on one line: a backslash
escapes the character behind it, every quote is escaped, and no control
character is there. -/
inductive Interior : List Char → Prop
  | nil : Interior []
  | char {c t} : c ≠ '"' → c ≠ '\\' → ¬ IsControl c → Interior t → Interior (c :: t)
  | escape {c t} : ¬ IsControl c → Interior t → Interior ('\\' :: c :: t)

namespace Interior

theorem append {s t : List Char} (hs : Interior s) (ht : Interior t) : Interior (s ++ t) := by
  induction hs with
  | nil => exact ht
  | char hq hb hc _ ih => exact .char hq hb hc ih
  | escape hc _ ih => exact .escape hc ih

theorem flatMap {q : Char → List Char} (h : ∀ c, Interior (q c)) (s : List Char) :
    Interior (s.flatMap q) := by
  induction s with
  | nil => exact .nil
  | cons c s ih =>
    rw [List.flatMap_cons]
    exact (h c).append ih

theorem not_isControl {t : List Char} (h : Interior t) : ∀ c ∈ t, ¬ IsControl c := by
  induction h with
  | nil =>
    intro c hc
    cases hc
  | char _ _ hctl _ ih =>
    intro c hc
    rcases List.mem_cons.mp hc with hc | hc
    · rw [hc]
      exact hctl
    · exact ih c hc
  | escape hctl _ ih =>
    intro c hc
    rcases List.mem_cons.mp hc with hc | hc
    · rw [hc]
      decide
    · rcases List.mem_cons.mp hc with hc | hc
      · rw [hc]
        exact hctl
      · exact ih c hc

end Interior

/-! ## Flat mappings -/

def readScalar : List Char → Option (List Char)
  | '"' :: t => readQuoted t
  | t => if isPlainString t then some t else none

def isKey (t : List Char) : Bool := isPlainString t && t.length ≤ 1024

/-- The key and the value of one line. -/
def readEntry (line : List Char) : Option (List Char × List Char) :=
  let key := line.takeWhile (· ≠ ':')
  match line.dropWhile (· ≠ ':') with
  | ':' :: ' ' :: value => if isKey key then (readScalar value).map (key, ·) else none
  | _ => none

/-- The lines of a text, and what follows the last line feed. -/
def splitLines : List Char → List (List Char) × List Char
  | [] => ([], [])
  | '\n' :: t => ([] :: (splitLines t).1, (splitLines t).2)
  | c :: t =>
    match splitLines t with
    | (l :: ls, r) => ((c :: l) :: ls, r)
    | ([], r) => ([], c :: r)

/-- The entries of a flat mapping, or `none` when the text is not one. -/
def readFlat (t : List Char) : Option (List (List Char × List Char)) :=
  match splitLines t with
  | (l :: ls, []) => (l :: ls).mapM readEntry
  | _ => none

def unlines (ls : List (List Char)) : List Char := ls.flatMap (· ++ ['\n'])

def entryLine (key scalar : List Char) : List Char := key ++ (':' :: ' ' :: scalar)

theorem splitLines_append {l : List Char} (hl : '\n' ∉ l) (t : List Char) :
    splitLines (l ++ '\n' :: t) = (l :: (splitLines t).1, (splitLines t).2) := by
  induction l with
  | nil => rfl
  | cons c l ih =>
    simp only [List.mem_cons, not_or] at hl
    rw [List.cons_append, splitLines.eq_3 _ _ (fun e => hl.1 e.symm), ih hl.2]

theorem splitLines_unlines {ls : List (List Char)} (h : ∀ l ∈ ls, '\n' ∉ l) :
    splitLines (unlines ls) = (ls, []) := by
  induction ls with
  | nil => rfl
  | cons l ls ih =>
    have ih := ih fun m hm => h m (by simp [hm])
    rw [unlines] at ih ⊢
    rw [List.flatMap_cons, List.append_assoc, List.singleton_append,
      splitLines_append (h l (by simp)), ih]

theorem unlines_cons (l : List Char) (ls : List (List Char)) :
    unlines (l :: ls) = l ++ '\n' :: unlines ls := by
  rw [unlines, List.flatMap_cons, List.append_assoc]
  rfl

/-- Where no line starts with `d`, no `d` is the first character of a line. -/
theorem not_lineStart_of_unlines {d : Char} (hd : d ≠ '\n') {ls : List (List Char)}
    (hls : ∀ l ∈ ls, '\n' ∉ l ∧ ∃ c t, l = c :: t ∧ c ≠ d) {pre post : List Char}
    (h : unlines ls = pre ++ d :: post) : ¬ ∀ c ∈ pre.getLast?, c = '\n' := by
  induction ls generalizing pre with
  | nil =>
    have hnil : [] = pre ++ d :: post := h
    exact absurd hnil.symm (by simp)
  | cons l ls ih =>
    obtain ⟨hlf, c, t, hl, hc⟩ := hls l (List.mem_cons_self ..)
    rw [unlines_cons] at h
    intro hstart
    rcases List.append_eq_append_iff.mp h with ⟨s, hpre, hs⟩ | ⟨s, hlpre, hs⟩
    · -- behind the first line
      cases s with
      | nil => exact hd (List.cons.inj hs).1.symm
      | cons b s =>
        apply ih (fun m hm => hls m (List.mem_cons_of_mem _ hm)) (List.cons.inj hs).2
        intro x hx
        apply hstart
        rw [hpre]
        exact List.mem_getLast?_append_of_mem_getLast? (List.mem_getLast?_cons hx)
    · -- inside the first line
      rcases List.eq_nil_or_concat pre with hnil | ⟨p, x, hx⟩
      · rw [hnil, List.nil_append, hl] at hlpre
        rw [← hlpre] at hs
        exact hc (List.cons.inj hs).1.symm
      · rw [hx, List.concat_eq_append] at hstart hlpre
        have hxlf : x = '\n' := hstart x (by simp)
        apply hlf
        rw [hlpre, hxlf]
        simp

theorem ne_colon_of_isPlainChar {c : Char} (h : isPlainChar c = true) : c ≠ ':' := by
  rintro rfl
  exact absurd h (by decide)

theorem readEntry_entryLine {key scalar value : List Char} (hk : isKey key = true)
    (hs : readScalar scalar = some value) :
    readEntry (entryLine key scalar) = some (key, value) := by
  have hkey : isPlainString key = true := (Bool.and_eq_true _ _ ▸ hk).1
  have hne : ∀ c ∈ key, decide (c ≠ ':') = true := fun c hc =>
    decide_eq_true (ne_colon_of_isPlainChar (isPlainChar_of_isPlainString hkey c hc))
  rw [readEntry, entryLine, List.takeWhile_append_of_pos hne, List.dropWhile_append_of_pos hne]
  simp [hk, hs]

/-- A line list whose entries all read is a flat mapping. -/
theorem readFlat_unlines {es : List (List Char × List Char)} {ls : List (List Char)}
    (hne : ls ≠ []) (hnl : ∀ l ∈ ls, '\n' ∉ l) (h : ls.mapM readEntry = some es) :
    readFlat (unlines ls) = some es := by
  cases ls with
  | nil => exact absurd rfl hne
  | cons l ls =>
    rw [readFlat, splitLines_unlines hnl]
    exact h

theorem readScalar_of_isPlainString {t : List Char} (h : isPlainString t = true) :
    readScalar t = some t := by
  cases t with
  | nil => simp [isPlainString] at h
  | cons c t =>
    have hc : c ≠ '"' := by
      rintro rfl
      exact absurd (isPlainChar_of_isPlainString h '"' (by simp)) (by decide)
    rw [readScalar.eq_2 _ (fun s e => hc (List.cons.inj e).1), if_pos h]

end Yaml
end Format
end YamlSigil
