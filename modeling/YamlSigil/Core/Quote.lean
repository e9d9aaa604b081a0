/-
Double-quoted emission of strings.

Every character is spelled so that a YAML reader gets it back, no spelling
breaks the line, and no spelling is longer than six octets for each octet of the
character.
-/
import YamlSigil.Core.Basic
import YamlSigil.Format.Yaml

namespace YamlSigil
namespace Core

open Format

def upperHexDigit (n : Nat) : Char := if n < 10 then Char.ofNat (48 + n) else Char.ofNat (55 + n)

/-- `{:04X}` of a number of at most four digits. -/
def upperHex4 (n : Nat) : Text :=
  [upperHexDigit (n / 4096 % 16), upperHexDigit (n / 256 % 16), upperHexDigit (n / 16 % 16),
    upperHexDigit (n % 16)]

/-- Characters spelled as `\u` and four digits. -/
def needsUnicodeEscape (ch : Char) : Prop :=
  ch.toNat ≤ 0x1F ∨ (0x7F ≤ ch.toNat ∧ ch.toNat ≤ 0x9F) ∨ ch.toNat = 0x2028 ∨ ch.toNat = 0x2029

instance (ch : Char) : Decidable (needsUnicodeEscape ch) :=
  inferInstanceAs (Decidable (_ ∨ _ ∨ _ ∨ _))

def quoteChar (ch : Char) : Text :=
  match ch with
  | '"' => ['\\', '"']
  | '\\' => ['\\', '\\']
  | '\x00' => ['\\', '0']
  | '\x07' => ['\\', 'a']
  | '\x08' => ['\\', 'b']
  | '\t' => ['\\', 't']
  | '\n' => ['\\', 'n']
  | '\x0b' => ['\\', 'v']
  | '\x0c' => ['\\', 'f']
  | '\r' => ['\\', 'r']
  | '\x1b' => ['\\', 'e']
  | ch => if needsUnicodeEscape ch then '\\' :: 'u' :: upperHex4 ch.toNat else [ch]

def quoteYamlString (value : Text) : Text := '"' :: (value.flatMap quoteChar ++ ['"'])

/-! ## Reading back -/

theorem hexDigit?_upperHexDigit {n : Nat} (h : n < 16) :
    Yaml.hexDigit? (upperHexDigit n) = some n :=
  (by decide : ∀ n < 16, Yaml.hexDigit? (upperHexDigit n) = some n) n h

theorem hexValue_upperHex4 {n : Nat} (h : n < 0x10000) :
    Yaml.hexValue (upperHex4 n) = some n := by
  unfold Yaml.hexValue upperHex4
  simp only [List.foldlM_cons, List.foldlM_nil,
    hexDigit?_upperHexDigit (show n / 4096 % 16 < 16 by omega),
    hexDigit?_upperHexDigit (show n / 256 % 16 < 16 by omega),
    hexDigit?_upperHexDigit (show n / 16 % 16 < 16 by omega),
    hexDigit?_upperHexDigit (show n % 16 < 16 by omega), Option.map_some, Option.bind_eq_bind,
    Option.bind_some]
  show some _ = some n
  congr 1
  omega

theorem readHex_upperHex4 {c : Char} (h : c.toNat < 0x10000) (t : List Char) :
    Yaml.readHex 4 (upperHex4 c.toNat ++ t) = some (c, t) := by
  have hlen : ¬ (upperHex4 c.toNat ++ t).length < 4 := by
    rw [List.length_append]
    show ¬ 4 + t.length < 4
    omega
  unfold Yaml.readHex
  rw [if_neg hlen, List.take_left' (by rfl), List.drop_left' (by rfl), hexValue_upperHex4 h,
    Option.bind_some, if_pos (show c.toNat.isValidChar from c.valid), Char.ofNat_toNat]

theorem spells_quoteChar (c : Char) : Yaml.Spells (quoteChar c) c := by
  unfold quoteChar
  split
  all_goals try exact Yaml.spells_escape fun _ => rfl
  next hq hb _ _ _ _ _ _ _ _ _ =>
    by_cases hesc : needsUnicodeEscape c
    · rw [if_pos hesc]
      have hlt : c.toNat < 0x10000 := by
        unfold needsUnicodeEscape at hesc
        omega
      exact Yaml.spells_escape (readHex_upperHex4 hlt)
    · rw [if_neg hesc]
      refine Yaml.spells_self hq hb ?_
      unfold needsUnicodeEscape at hesc
      unfold Yaml.isInteriorChar
      rw [Bool.or_eq_true]
      exact .inr (decide_eq_true (by omega))

theorem readScalar_quoteYamlString (value : Text) :
    Yaml.readScalar (quoteYamlString value) = some value :=
  Yaml.readQuoted_flatMap fun c _ => spells_quoteChar c

/-! ## Lines and lengths -/

theorem upperHexDigit_ascii {n : Nat} (h : n < 16) :
    (upperHexDigit n).toNat < 128 ∧ upperHexDigit n ≠ '\n' :=
  (by decide : ∀ n < 16, (upperHexDigit n).toNat < 128 ∧ upperHexDigit n ≠ '\n') n h

theorem upperHex4_ascii {n : Nat} {c : Char} (h : c ∈ upperHex4 n) : c.toNat < 128 ∧ c ≠ '\n' := by
  simp only [upperHex4, List.mem_cons, List.not_mem_nil, or_false] at h
  rcases h with h | h | h | h
  all_goals
    rw [h]
    exact upperHexDigit_ascii (by omega)

/-- A character is spelled by itself, or in ASCII with at most six characters. -/
theorem quoteChar_cases (c : Char) :
    (quoteChar c = [c] ∧ c ≠ '\n') ∨
      ((quoteChar c).length ≤ 6 ∧ ∀ d ∈ quoteChar c, d.toNat < 128 ∧ d ≠ '\n') := by
  unfold quoteChar
  split
  case h_12 hn _ _ _ _ =>
    by_cases hesc : needsUnicodeEscape c
    · rw [if_pos hesc]
      refine .inr ⟨Nat.le_refl 6, fun d hd => ?_⟩
      rcases List.mem_cons.mp hd with hd | hd
      · rw [hd]
        decide
      · rcases List.mem_cons.mp hd with hd | hd
        · rw [hd]
          decide
        · exact upperHex4_ascii hd
    · rw [if_neg hesc]
      exact .inl ⟨rfl, hn⟩
  -- Every other case is a backslash and a letter.
  all_goals exact .inr (by simp)

theorem length_asBytes_quoteChar (c : Char) :
    (asBytes (quoteChar c)).length ≤ 6 * (asBytes [c]).length := by
  rcases quoteChar_cases c with ⟨hself, -⟩ | ⟨hlen, hall⟩
  · rw [hself]
    omega
  · have hpos : 0 < (asBytes [c]).length := by
      have := Utf8.length_encode_ge [c]
      exact this
    rw [Utf8.length_encode_ascii fun d hd => (hall d hd).1]
    omega

/-- Quoting makes a text at most six times as long, and no shorter. -/
theorem length_quoteYamlString (value : Text) :
    (asBytes (quoteYamlString value)).length ≤ 6 * (asBytes value).length + 2 := by
  have hbody : (asBytes (value.flatMap quoteChar)).length ≤ 6 * (asBytes value).length := by
    induction value with
    | nil => exact Nat.le_refl 0
    | cons c value ih =>
      have hc := length_asBytes_quoteChar c
      rw [List.flatMap_cons, asBytes_append, asBytes_cons c value, List.length_append,
        List.length_append]
      omega
  have hquote : (asBytes ['"']).length = 1 := by decide
  unfold quoteYamlString
  rw [asBytes_cons, asBytes_append, List.length_append, List.length_append, hquote]
  omega

theorem length_asBytes_le_four (c : Char) : (asBytes [c]).length ≤ 4 := by
  show (String.utf8EncodeChar c ++ []).length ≤ 4
  rw [List.append_nil, String.length_utf8EncodeChar]
  exact c.utf8Size_le_four

theorem length_asBytes_le_quoteChar (c : Char) :
    (asBytes [c]).length ≤ (asBytes (quoteChar c)).length := by
  unfold quoteChar
  split
  case h_12 =>
    by_cases hesc : needsUnicodeEscape c
    · rw [if_pos hesc]
      have hfour := length_asBytes_le_four c
      have hsix : 6 ≤ (asBytes ('\\' :: 'u' :: upperHex4 c.toNat)).length :=
        Utf8.length_encode_ge ('\\' :: 'u' :: upperHex4 c.toNat)
      omega
    · rw [if_neg hesc]
  all_goals decide

/-- Quoting adds the two quotes at least. -/
theorem length_le_quoteYamlString (value : Text) :
    (asBytes value).length + 2 ≤ (asBytes (quoteYamlString value)).length := by
  have hbody : (asBytes value).length ≤ (asBytes (value.flatMap quoteChar)).length := by
    induction value with
    | nil => exact Nat.le_refl 0
    | cons c value ih =>
      have hc := length_asBytes_le_quoteChar c
      rw [List.flatMap_cons, asBytes_append, asBytes_cons c value, List.length_append,
        List.length_append]
      omega
  have hquote : (asBytes ['"']).length = 1 := by decide
  unfold quoteYamlString
  rw [asBytes_cons, asBytes_append, List.length_append, List.length_append, hquote]
  omega

/-! ## Quoted scalars -/

theorem not_isControl_upperHexDigit {n : Nat} (h : n < 16) :
    upperHexDigit n ≠ '"' ∧ upperHexDigit n ≠ '\\' ∧ ¬ Yaml.IsControl (upperHexDigit n) :=
  (by decide : ∀ n < 16, upperHexDigit n ≠ '"' ∧ upperHexDigit n ≠ '\\' ∧
    ¬ Yaml.IsControl (upperHexDigit n)) n h

theorem interior_upperHex4 (n : Nat) : Yaml.Interior (upperHex4 n) := by
  have hdigit : ∀ m t, Yaml.Interior t → Yaml.Interior (upperHexDigit (m % 16) :: t) := by
    intro m t ht
    obtain ⟨hq, hb, hc⟩ := not_isControl_upperHexDigit (Nat.mod_lt m (by decide))
    exact .char hq hb hc ht
  exact hdigit _ _ (hdigit _ _ (hdigit _ _ (hdigit _ _ .nil)))

theorem interior_quoteChar (c : Char) : Yaml.Interior (quoteChar c) := by
  unfold quoteChar
  split
  case h_12 hq hb _ _ _ _ _ _ _ _ _ =>
    by_cases hesc : needsUnicodeEscape c
    · rw [if_pos hesc]
      exact .escape (by decide) (interior_upperHex4 c.toNat)
    · rw [if_neg hesc]
      refine .char hq hb (fun hc => hesc ?_) .nil
      unfold Yaml.IsControl at hc
      unfold needsUnicodeEscape
      omega
  all_goals exact .escape (by decide) .nil

theorem not_isControl_quoteYamlString (value : Text) :
    ∀ c ∈ quoteYamlString value, ¬ Yaml.IsControl c := by
  intro c hc
  rcases List.mem_cons.mp hc with hc | hc
  · rw [hc]
    decide
  · rcases List.mem_append.mp hc with hc | hc
    · exact (Yaml.Interior.flatMap interior_quoteChar value).not_isControl c hc
    · rw [List.mem_singleton.mp hc]
      decide

theorem quoteYamlString_injective : Function.Injective quoteYamlString := by
  intro s t h
  have hs := readScalar_quoteYamlString s
  rw [h, readScalar_quoteYamlString t] at hs
  exact (Option.some.inj hs).symm

/-- Main result on quoting: a text is quoted on one line, between two quotes,
with nothing raw in between that a reader could take for something else, and it
is read back as it was. -/
theorem quoteYamlString_spec :
    (∀ value, ∃ interior, quoteYamlString value = '"' :: (interior ++ ['"']) ∧
      Yaml.Interior interior ∧ (∀ c ∈ quoteYamlString value, ¬ Yaml.IsControl c) ∧
      Yaml.readScalar (quoteYamlString value) = some value ∧
      (asBytes value).length + 2 ≤ (asBytes (quoteYamlString value)).length) ∧
    Function.Injective quoteYamlString :=
  ⟨fun value => ⟨value.flatMap quoteChar, rfl, Yaml.Interior.flatMap interior_quoteChar value,
    not_isControl_quoteYamlString value, readScalar_quoteYamlString value,
    length_le_quoteYamlString value⟩, quoteYamlString_injective⟩

end Core
end YamlSigil
