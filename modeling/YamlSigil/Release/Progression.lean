/-
The callers of the advancement check.

Published versions are read off tags: those on the forge for a fresh release, those
merged into the branch of the line in a checkout.  Tags that name no version are passed
over.  On the same tags the two callers agree, in whatever order the tags are listed.
-/
import YamlSigil.Release.Advancement
import YamlSigil.Release.Forge

namespace YamlSigil
namespace Release

open YamlSigil.Core Format.SemVer

def maxTags : Nat := 4096

def isSha (value : Text) : Bool :=
  value.length == 40 && value.all fun c => ('0' ≤ c && c ≤ '9') || ('a' ≤ c && c ≤ 'f')

/-- The tags that count on the forge are those of the first package. -/
def corePrefix : Text := "yaml-sigil-core-v".toList

section
variable (parse : Text → Option Version)

/-- A canonical version. -/
def readVersion (raw : Text) : Option Version :=
  (parse raw).filter fun version => version.toText == raw

def publishedOnForge : List GitRef → Except Text (List Version)
  | [] => .ok []
  | reference :: rest =>
      match (refName corePrefix).isPrefixOf? reference.name with
      | none => .error "unexpected release tag prefix".toList
      | some raw =>
          match readVersion parse raw with
          | none => publishedOnForge rest
          | some version =>
              if reference.object.kind ≠ "tag".toList ∨ isSha reference.object.sha = false then
                .error "release progression requires annotated release tags".toList
              else (version :: ·) <$> publishedOnForge rest

/-- `references` are what the forge lists under the prefix. -/
def requireFreshProgression (line : ReleaseLine) (selected : Version)
    (references : Except Text (List GitRef)) : Except Text Unit :=
  if line = .main then .ok ()
  else do
    let references ← references
    if maxTags < references.length then .error "release tag inventory exceeds its bound".toList
    else
      let published ← publishedOnForge parse references
      line.requireAdvancement selected published

def publishedInCheckout (tagPrefix : Text) : List Text → Except Text (List Version)
  | [] => .ok []
  | tag :: rest =>
      match tagPrefix.isPrefixOf? tag with
      | none => .error "unexpected release tag prefix".toList
      | some value =>
          match readVersion parse value with
          | none => publishedInCheckout tagPrefix rest
          | some version => (version :: ·) <$> publishedInCheckout tagPrefix rest

/-- `tags` are what Git lists under the prefix. -/
def validateVersion (line : ReleaseLine) (version : Version) (tagPrefix : Text)
    (tags : Except Text (List Text)) : Except Text Unit := do
  line.requireVersion version
  if line = .main then .ok ()
  else
    let tags ← tags
    let versions ← publishedInCheckout parse tagPrefix tags
    line.requireAdvancement version versions

end

/-! ## One reading of the tags -/

section
variable {parse : Text → Option Version}

theorem isPrefixOf?_append (p q tag : Text) :
    (p ++ q).isPrefixOf? (p ++ tag) = q.isPrefixOf? tag := by
  induction p with
  | nil => rfl
  | cons c p ih =>
    rw [List.cons_append, List.cons_append, List.isPrefixOf?, if_pos (beq_self_eq_true c)]
    exact ih

/-- The reference of an annotated tag. -/
def annotated (sha : Text → Text) (tag : Text) : GitRef := ⟨refName tag, ⟨sha tag, "tag".toList⟩⟩

theorem publishedOnForge_annotated {sha : Text → Text} (hsha : ∀ tag, isSha (sha tag) = true)
    (tags : List Text) : publishedOnForge parse (tags.map (annotated sha)) =
      publishedInCheckout parse corePrefix tags := by
  induction tags with
  | nil => rfl
  | cons tag rest ih =>
    rw [List.map_cons, publishedOnForge, publishedInCheckout]
    have hstrip : (refName corePrefix).isPrefixOf? (annotated sha tag).name =
        corePrefix.isPrefixOf? tag := isPrefixOf?_append _ _ _
    rw [hstrip]
    cases corePrefix.isPrefixOf? tag with
    | none => rfl
    | some raw =>
      cases hread : readVersion parse raw with
      | none => simp only [hread, ih]
      | some version =>
        have hannotated : ¬ ((annotated sha tag).object.kind ≠ "tag".toList ∨
            isSha (annotated sha tag).object.sha = false) := by
          rintro (hkind | hbad)
          · exact hkind rfl
          · rw [annotated, hsha tag] at hbad
            cases hbad
        simp only [hread, if_neg hannotated, ih]

/-- The two callers agree on a version of the line. -/
theorem requireFreshProgression_eq_validateVersion {line : ReleaseLine} {selected : Version}
    (hadmits : line.admits selected = true) {sha : Text → Text}
    (hsha : ∀ tag, isSha (sha tag) = true) {tags : List Text} (hbound : tags.length ≤ maxTags) :
    requireFreshProgression parse line selected (.ok (tags.map (annotated sha))) =
      validateVersion parse line selected corePrefix (.ok tags) := by
  unfold requireFreshProgression validateVersion
  rw [ReleaseLine.requireVersion_eq_ok.mpr hadmits]
  by_cases hmain : line = .main
  · rw [if_pos hmain]
    simp only [hmain, if_true]
    rfl
  · rw [if_neg hmain]
    simp only [bind, Except.bind, List.length_map, if_neg (Nat.not_lt.mpr hbound), if_neg hmain,
      publishedOnForge_annotated hsha]

/-! ## The order of the tags -/

/-- The version that a tag names. -/
def versionOfTag (parse : Text → Option Version) (tagPrefix tag : Text) : Option Version :=
  (tagPrefix.isPrefixOf? tag).bind (readVersion parse)

theorem publishedInCheckout_eq (tagPrefix : Text) (tags : List Text) :
    publishedInCheckout parse tagPrefix tags =
      if tags.all fun tag => (tagPrefix.isPrefixOf? tag).isSome then
        .ok (tags.filterMap (versionOfTag parse tagPrefix))
      else .error "unexpected release tag prefix".toList := by
  induction tags with
  | nil => rfl
  | cons tag rest ih =>
    rw [publishedInCheckout, List.all_cons, List.filterMap_cons, versionOfTag]
    cases tagPrefix.isPrefixOf? tag with
    | none => rfl
    | some value =>
      simp only [Option.isSome_some, Bool.true_and, Option.bind_some]
      cases readVersion parse value with
      | none => exact ih
      | some version =>
        simp only [ih]
        split
        · rfl
        · rfl

/-- The order in which the tags are listed does not matter. -/
theorem validateVersion_perm {tags tags' : List Text} (h : tags.Perm tags') (line : ReleaseLine)
    (version : Version) (tagPrefix : Text) :
    validateVersion parse line version tagPrefix (.ok tags) =
      validateVersion parse line version tagPrefix (.ok tags') := by
  have hall : (tags.all fun tag => (tagPrefix.isPrefixOf? tag).isSome) =
      tags'.all fun tag => (tagPrefix.isPrefixOf? tag).isSome := h.all_eq
  have hversions := h.filterMap (versionOfTag parse tagPrefix)
  unfold validateVersion
  simp only [bind, Except.bind, publishedInCheckout_eq, hall]
  by_cases hprefixed : (tags'.all fun tag => (tagPrefix.isPrefixOf? tag).isSome) = true
  · simp only [if_pos hprefixed, ReleaseLine.requireAdvancement_congr fun v _ => hversions.mem_iff]
  · simp only [if_neg hprefixed]

end

end Release
end YamlSigil
