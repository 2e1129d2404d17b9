/-
  The names in the directory of a store: those of releases, of their locks and staging
  directories, and those that the newest release takes.
-/
import ProductSpec.Proofs.Checksum.List
import ProductSpec.Proofs.File.Place
import ProductSpec.Proofs.Version.TagText
import ProductSpec.Store.Freeze
import ProductSpec.Store.Load
import Mathlib.Data.List.Nodup

namespace ProductSpec

open Text

theorem isPieceName_of_chars {name : String} (noSlash : '/' ∉ name.toList)
    (noZero : '\x00' ∉ name.toList) {c : Char} (mem : c ∈ name.toList) (notPoint : c ≠ '.') :
    IsPieceName name where
  noSlash := noSlash
  noZero := noZero
  filled := by
    rintro rfl
    cases mem
  notHere := by
    rintro rfl
    exact notPoint (List.mem_singleton.1 mem)
  notBack := by
    rintro rfl
    simp [notPoint] at mem

/-- A name of a product whose file can be told from the other files of a release, and which a line
can hold. -/
structure IsProductName (name : String) : Prop where
  noSlash : '/' ∉ name.toList
  oneLine : '\n' ∉ name.toList
  trimmed : IsTrimmed name.toList
  notManifest : name ≠ "manifest"
  notSchema : name ≠ "dataset_schema"

/-- A name of a product with no NUL in it, so that there can be a file for it. -/
structure IsPlainName (name : String) : Prop extends IsProductName name where
  noZero : '\x00' ∉ name.toList

namespace Release

theorem isPieceName_productFile {name : String} (h : IsPlainName name) :
    IsPieceName (productFile name) := by
  refine isPieceName_of_chars ?_ ?_ (c := 'j') ?_ (by decide)
  · simp [productFile, h.noSlash]
  · simp [productFile, h.noZero]
  · simp [productFile]

theorem isLineName_productFile {name : String} (h : IsPlainName name) :
    ChecksumList.IsLineName (productFile name) where
  oneLine := by simp [productFile, h.oneLine]
  trimmed := by
    refine ⟨fun c mem => ?_, fun c mem => ?_⟩
    · rw [productFile, String.toList_append, List.head?_append] at mem
      cases first : name.toList.head? with
      | none =>
        rw [first] at mem
        cases mem
        rfl
      | some d =>
        rw [first] at mem
        cases mem
        exact h.trimmed.first c first
    · rw [productFile, String.toList_append, List.getLast?_append] at mem
      cases mem
      rfl

theorem productFile_inj {name name' : String} :
    productFile name = productFile name' ↔ name = name' := by
  rw [productFile, productFile, ← String.toList_inj, String.toList_append, String.toList_append,
    List.append_left_inj, String.toList_inj]

theorem productFile_ne_manifest {name : String} (h : IsPlainName name) :
    productFile name ≠ Store.manifestName := fun same =>
  h.notManifest (productFile_inj.1 same)

theorem productFile_ne_schema {name : String} (h : IsPlainName name) :
    productFile name ≠ Store.schemaName := fun same =>
  h.notSchema (productFile_inj.1 same)

theorem productFile_ne_checksums (name : String) : productFile name ≠ Store.checksumsName := by
  intro same
  have last := congrArg (fun s => s.toList.getLast?) same
  simp [productFile, Store.checksumsName] at last

end Release

namespace Store

variable {tag : String} {v : Version}

theorem isPieceName_dirName (h : Version.ofTag? tag = some v) :
    IsPieceName (Version.dirName tag) := by
  obtain ⟨rest, form, chars⟩ := Version.dirName_text h
  refine isPieceName_of_chars ?_ ?_ (c := 'v') ?_ (by decide)
  · rw [form, List.mem_cons, not_or]
    exact ⟨by decide, fun mem => absurd (chars _ mem) (by decide)⟩
  · rw [form, List.mem_cons, not_or]
    exact ⟨by decide, fun mem => absurd (chars _ mem) (by decide)⟩
  · rw [form]
    exact List.mem_cons_self

theorem isPieceName_hidden (h : Version.ofTag? tag = some v) {suffix : String}
    (noSlash : '/' ∉ suffix.toList) (noZero : '\x00' ∉ suffix.toList) :
    IsPieceName ("." ++ Version.dirName tag ++ suffix) := by
  have inner := isPieceName_dirName h
  obtain ⟨rest, form, -⟩ := Version.dirName_text h
  refine isPieceName_of_chars ?_ ?_ (c := 'v') ?_ (by decide)
  · simp [inner.noSlash, noSlash]
  · simp [inner.noZero, noZero]
  · simp [form]

theorem isPieceName_lock (h : Version.ofTag? tag = some v) :
    IsPieceName ("." ++ Version.dirName tag ++ ".lock") :=
  isPieceName_hidden h (by decide) (by decide)

theorem isPieceName_staging (h : Version.ofTag? tag = some v) :
    IsPieceName ("." ++ Version.dirName tag ++ ".staging") :=
  isPieceName_hidden h (by decide) (by decide)

theorem head?_hidden (name suffix : String) :
    ("." ++ name ++ suffix).toList.head? = some '.' := by
  simp

theorem isPieceName_latest : IsPieceName latestName := by
  refine ⟨?_, ?_, ?_, ?_, ?_⟩ <;> decide

theorem isPieceName_latestLock : IsPieceName ".latest.lock" := by
  refine ⟨?_, ?_, ?_, ?_, ?_⟩ <;> decide

theorem isPieceName_latestStaging : IsPieceName ".latest.staging" := by
  refine ⟨?_, ?_, ?_, ?_, ?_⟩ <;> decide

theorem isPieceName_latestOld : IsPieceName ".latest.old" := by
  refine ⟨?_, ?_, ?_, ?_, ?_⟩ <;> decide

theorem ne_latest_of_ofCheckedTag? (h : Version.ofCheckedTag? tag = some v) :
    tag ≠ latestName := by
  rintro rfl
  cases h

theorem versionDir_of_ne (s : Store) (h : tag ≠ latestName) :
    s.versionDir tag = s.root.join (Version.dirName tag) := by
  rw [versionDir, if_neg h]
  rfl

theorem versionDir_of_checked (s : Store) (h : Version.ofCheckedTag? tag = some v) :
    s.versionDir tag = s.root.join (Version.dirName tag) :=
  versionDir_of_ne s (ne_latest_of_ofCheckedTag? h)

theorem isReleaseName_iff {name : String} :
    isReleaseName name = true ↔ name.toList.head? ≠ some '.' ∧ name ≠ latestName := by
  simp [isReleaseName]

theorem isReleaseName_dirName (h : Version.ofTag? tag = some v) :
    isReleaseName (Version.dirName tag) = true := by
  obtain ⟨rest, form, -⟩ := Version.dirName_text h
  have unlike : Version.dirName tag ≠ latestName := by
    intro same
    rw [same] at form
    cases form
  simp [isReleaseName, form, unlike]

/-- The names that the newest release takes. -/
def latestNames : List String := [".latest.lock", ".latest.staging", ".latest.old", latestName]

theorem dirName_notMem_latestNames (h : Version.ofTag? tag = some v) :
    Version.dirName tag ∉ latestNames := by
  obtain ⟨rest, form, -⟩ := Version.dirName_text h
  intro mem
  have first := List.mem_map_of_mem (f := fun name : String => name.toList.head?) mem
  rw [form, List.head?_cons] at first
  exact absurd first (by decide)

theorem hidden_notMem_latestNames (h : Version.ofTag? tag = some v) (suffix : String) :
    "." ++ Version.dirName tag ++ suffix ∉ latestNames := by
  obtain ⟨rest, form, -⟩ := Version.dirName_text h
  intro mem
  have second := List.mem_map_of_mem (f := fun name : String => name.toList[1]?) mem
  rw [String.toList_append, String.toList_append, form] at second
  exact absurd (show some 'v' ∈ _ from second) (by decide)

theorem dirName_ne_hidden (h : Version.ofTag? tag = some v) (name suffix : String) :
    Version.dirName tag ≠ "." ++ name ++ suffix := fun same =>
  (isReleaseName_iff.1 (isReleaseName_dirName h)).1 (same ▸ head?_hidden name suffix)

theorem lock_ne_staging (name : String) :
    "." ++ name ++ ".lock" ≠ "." ++ name ++ ".staging" := by
  intro same
  have length := congrArg String.length same
  rw [String.length_append, String.length_append _ ".staging", Nat.add_right_inj] at length
  exact absurd length (by decide)

/-- A text names a version just when it is a tag of that version written out, and every tag may
name a directory: a single piece of a path that is written with the characters of tags, begins with
`v` and is not the name of the newest release. Two tags have the same directory just when they are
equal up to one `v` in front, and then they name the same version. -/
theorem tags_exactly (tag : String) :
    (∀ v, Version.ofTag? tag = some v ↔ v.TagWritten tag.toList) ∧
      Version.ofCheckedTag? tag = Version.ofTag? tag ∧
      (∀ v, Version.ofTag? tag = some v →
        IsPieceName (Version.dirName tag) ∧ (Version.dirName tag).toList.head? = some 'v' ∧
          (∀ c ∈ (Version.dirName tag).toList, Version.isTagChar c = true) ∧
          Version.dirName tag ≠ latestName ∧
          ∀ s : Store, s.versionDir tag = s.root.join (Version.dirName tag)) ∧
      ∀ other v w, Version.ofTag? tag = some v → Version.ofTag? other = some w →
        (Version.dirName tag = Version.dirName other ↔
          tag = other ∨ tag = "v" ++ other ∨ other = "v" ++ tag) ∧
          (Version.dirName tag = Version.dirName other → v = w) := by
  refine ⟨fun v => Version.ofTag?_eq_some_iff, Version.ofCheckedTag?_eq tag, fun v named => ?_,
    fun other v w named named' => ⟨Version.dirName_eq_iff named named', fun same => ?_⟩⟩
  · obtain ⟨rest, form, chars⟩ := Version.dirName_text named
    have notLatest := ne_latest_of_ofCheckedTag? ((Version.ofCheckedTag?_eq tag).trans named)
    refine ⟨isPieceName_dirName named, by rw [form]; rfl, ?_,
      (isReleaseName_iff.1 (isReleaseName_dirName named)).2, fun s => versionDir_of_ne s notLatest⟩
    rw [form]
    exact List.forall_mem_cons.2 ⟨rfl, chars⟩
  · have reads := Version.ofTag?_congr (Version.dirName_eq_iff_bareTag.1 same)
    rw [named, named', Option.some.injEq] at reads
    exact reads

/-- The points and the hyphen behind the first hyphen belong to the identifiers. -/
theorem tags_exactly_candidate :
    Version.TagWritten ⟨1, 0, 0, ["rc-a", "1"], ["05"]⟩ "v1.0-rc-a.1+05".toList ∧
      IsPieceName (Version.dirName "1.0-rc-a.1+05") ∧
      Version.dirName "v1.0-rc-a.1+05" = Version.dirName "1.0-rc-a.1+05" := by
  have marked : Version.ofTag? "v1.0-rc-a.1+05" = some ⟨1, 0, 0, ["rc-a", "1"], ["05"]⟩ := by
    decide +kernel
  have bare : Version.ofTag? "1.0-rc-a.1+05" = some ⟨1, 0, 0, ["rc-a", "1"], ["05"]⟩ := by
    decide +kernel
  obtain ⟨written, -, -, twins⟩ := tags_exactly "v1.0-rc-a.1+05"
  obtain ⟨-, -, named, -⟩ := tags_exactly "1.0-rc-a.1+05"
  exact ⟨(written _).1 marked, (named _ bare).1,
    (twins _ _ _ marked bare).1.2 (.inr (.inl (by decide)))⟩

end Store

end ProductSpec
