/-
  The files of a release: each has a name of its own, and the checksums are those of the files.
-/
import ProductSpec.Proofs.Store.Names
import Mathlib.Logic.Function.Basic

namespace ProductSpec.Release

open Store

/-- What a directory holds after a file has been written into it. -/
def Artifact.put (files : String → Option ByteArray) (a : Artifact) : String → Option ByteArray :=
  Function.update files a.file (some a.content.toUTF8)

theorem foldl_put_of_notMem {artifacts : List Artifact} {files : String → Option ByteArray}
    {name : String} (h : name ∉ artifacts.map Artifact.file) :
    artifacts.foldl Artifact.put files name = files name := by
  induction artifacts generalizing files with
  | nil => rfl
  | cons a rest ih =>
    rw [List.map_cons, List.mem_cons, not_or] at h
    rw [List.foldl_cons, ih h.2, Artifact.put, Function.update_of_ne h.1]

theorem foldl_put_of_mem {artifacts : List Artifact} {files : String → Option ByteArray}
    {a : Artifact} (nodup : (artifacts.map Artifact.file).Nodup) (h : a ∈ artifacts) :
    artifacts.foldl Artifact.put files a.file = some a.content.toUTF8 := by
  induction artifacts generalizing files with
  | nil => cases h
  | cons first rest ih =>
    obtain ⟨notLater, nodup⟩ := List.nodup_cons.1 nodup
    rcases List.mem_cons.1 h with rfl | h
    · rw [List.foldl_cons, foldl_put_of_notMem notLater, Artifact.put, Function.update_self]
    · exact ih nodup h

theorem make?_eq_some {tag : String} {products : NameMap Dataset} {now : Timestamp}
    {r : Release} : make? tag products now = some r ↔ ∃ v, Version.ofCheckedTag? tag = some v ∧
      r = ⟨tag, v, now, products, JsonSchema.ofProducts products⟩ := by
  unfold make?
  cases Version.ofCheckedTag? tag with
  | none => simp
  | some v => simp [eq_comm]

variable {options : StoreOptions} {format : OutputFormat} {r : Release} {a : Artifact}

/-- The directory of a release. -/
def files (options : StoreOptions) (r : Release) : String → Option ByteArray :=
  (r.artifacts options).foldl Artifact.put fun _ => none

/-- Whether all products have plain names. -/
def HasPlainNames (r : Release) : Prop := ∀ e ∈ r.products.entries, IsPlainName e.1

theorem file_productArtifact (format : OutputFormat) (name : String) (d : Dataset) :
    (productArtifact format name d).file = productFile name := rfl

theorem mem_productArtifacts :
    a ∈ r.productArtifacts format ↔
      ∃ e ∈ r.products.entries, productArtifact format e.1 e.2 = a :=
  List.mem_map

theorem mem_artifacts :
    a ∈ r.artifacts options ↔
      a ∈ r.productArtifacts options.format ∨ a = r.schemaArtifact options.format ∨
        a = r.manifestArtifact options.format ∨ options.writeChecksums = true ∧
          a = ⟨checksumsName, (r.checksums options.format).render⟩ := by
  cases options with
  | mk format writeChecksums =>
    cases writeChecksums <;> simp [artifacts]

/-- The files of a release of which a list of checksums tells. -/
def covered (format : OutputFormat) (r : Release) : List Artifact :=
  r.productArtifacts format ++ [r.schemaArtifact format]

theorem covered_sublist (options : StoreOptions) (r : Release) :
    (r.covered options.format).Sublist (r.artifacts options) := by
  rw [covered, artifacts, List.append_assoc]
  exact List.Sublist.append_left (List.sublist_append_left [_] _) _

theorem entries_checksums (format : OutputFormat) (r : Release) :
    (r.checksums format).entries = ((r.covered format).map fun a => (a.file, a.checksum)).foldl
      (fun m e => m.insert e.1 e.2) ∅ := by
  rw [List.foldl_map]
  exact (List.foldl_hom ChecksumList.entries fun _ _ => rfl).symm

theorem map_file_productArtifacts :
    (r.productArtifacts format).map Artifact.file =
      (r.products.entries.map Prod.fst).map productFile := by
  simp [productArtifacts, productArtifact, NameMap.toList]

theorem isPieceName_manifest : IsPieceName manifestName := by
  refine ⟨?_, ?_, ?_, ?_, ?_⟩ <;> decide

theorem isPieceName_schema : IsPieceName schemaName := by
  refine ⟨?_, ?_, ?_, ?_, ?_⟩ <;> decide

theorem isPieceName_checksums : IsPieceName checksumsName := by
  refine ⟨?_, ?_, ?_, ?_, ?_⟩ <;> decide

theorem isLineName_schema : ChecksumList.IsLineName schemaName := by
  refine ⟨?_, ?_⟩ <;> decide

theorem files_checksums_of_none (without : options.writeChecksums = false) :
    r.files options checksumsName = none := by
  refine foldl_put_of_notMem fun mem => ?_
  obtain ⟨a, isIn, same⟩ := List.mem_map.1 mem
  rcases mem_artifacts.1 isIn with isIn | rfl | rfl | ⟨written, -⟩
  · obtain ⟨e, -, rfl⟩ := mem_productArtifacts.1 isIn
    exact productFile_ne_checksums e.1 same
  · exact absurd same (by decide : schemaName ≠ checksumsName)
  · exact absurd same (by decide : manifestName ≠ checksumsName)
  · cases without.symm.trans written

theorem notMem_productArtifacts {name : String}
    (unlike : ∀ e ∈ r.products.entries, productFile e.1 ≠ name) :
    name ∉ (r.productArtifacts format).map Artifact.file := by
  rw [List.mem_map]
  rintro ⟨a, mem, same⟩
  obtain ⟨e, isIn, rfl⟩ := mem_productArtifacts.1 mem
  exact unlike e isIn same

section Plain

variable (plain : r.HasPlainNames)

include plain

theorem isPieceName_artifact (h : a ∈ r.artifacts options) : IsPieceName a.file := by
  rcases mem_artifacts.1 h with h | rfl | rfl | ⟨-, rfl⟩
  · obtain ⟨e, mem, rfl⟩ := mem_productArtifacts.1 h
    exact isPieceName_productFile (plain e mem)
  · exact isPieceName_schema
  · exact isPieceName_manifest
  · exact isPieceName_checksums

theorem isPieceName_of_files {name : String} (h : (r.files options name).isSome = true) :
    IsPieceName name := by
  by_cases mem : name ∈ (r.artifacts options).map Artifact.file
  · obtain ⟨a, isIn, rfl⟩ := List.mem_map.1 mem
    exact isPieceName_artifact plain isIn
  · rw [files, foldl_put_of_notMem mem] at h
    cases h

/-- No two files of a release have one name. -/
theorem nodup_artifacts : ((r.artifacts options).map Artifact.file).Nodup := by
  have products : ((r.productArtifacts options.format).map Artifact.file).Nodup := by
    rw [map_file_productArtifacts]
    exact r.products.nodup_names.map fun _ _ same => productFile_inj.1 same
  have schema : schemaName ∉ (r.productArtifacts options.format).map Artifact.file :=
    notMem_productArtifacts fun e mem => productFile_ne_schema (plain e mem)
  have manifest : manifestName ∉ (r.productArtifacts options.format).map Artifact.file :=
    notMem_productArtifacts fun e mem => productFile_ne_manifest (plain e mem)
  have checksums : checksumsName ∉ (r.productArtifacts options.format).map Artifact.file :=
    notMem_productArtifacts fun e _ => productFile_ne_checksums e.1
  have others : [schemaName, manifestName, checksumsName].Nodup := by decide
  -- With the list of checksums there are the most files, so that case settles the other one.
  have all : ((r.productArtifacts options.format).map Artifact.file ++
      [schemaName, manifestName, checksumsName]).Nodup := by
    refine List.nodup_append'.2 ⟨products, others, fun name mem isOther => ?_⟩
    simp only [List.mem_cons, List.not_mem_nil, or_false] at isOther
    rcases isOther with rfl | rfl | rfl
    · exact schema mem
    · exact manifest mem
    · exact checksums mem
  refine all.sublist ?_
  rw [artifacts, List.append_assoc, List.map_append]
  refine List.Sublist.append_left ?_ _
  cases options.writeChecksums with
  | false => exact List.sublist_append_left [schemaName, manifestName] [checksumsName]
  | true => exact .refl _

theorem files_eq_some (h : a ∈ r.artifacts options) :
    r.files options a.file = some a.content.toUTF8 :=
  foldl_put_of_mem (nodup_artifacts plain) h

/-- The checksums are those of files of the release. -/
theorem checksums_entries {e : String × String}
    (h : e ∈ (r.checksums options.format).entries.entries) :
    ∃ a ∈ r.artifacts options, e = (a.file, a.checksum) ∧ ChecksumList.IsLineName a.file := by
  rw [entries_checksums] at h
  obtain ⟨a, mem, rfl⟩ := List.mem_map.1 ((NameMap.mem_foldl_insert h).resolve_left
    List.not_mem_nil)
  refine ⟨a, (covered_sublist options r).subset mem, rfl, ?_⟩
  rcases List.mem_append.1 mem with mem | mem
  · obtain ⟨e, isIn, rfl⟩ := mem_productArtifacts.1 mem
    exact isLineName_productFile (plain e isIn)
  · rw [List.mem_singleton.1 mem]
    exact isLineName_schema

/-- No file that is covered is dropped from the list, as no two have one name. -/
theorem mem_checksums (h : a ∈ r.covered options.format) :
    (a.file, a.checksum) ∈ (r.checksums options.format).entries.entries := by
  have distinct : ((r.covered options.format).map Artifact.file).Nodup :=
    (nodup_artifacts plain).sublist ((covered_sublist options r).map Artifact.file)
  rw [entries_checksums]
  refine NameMap.mem_of_get? (NameMap.get?_foldl_insert_of_mem (e := (a.file, a.checksum)) ?_ ?_)
  · rwa [List.map_map]
  · exact List.mem_map_of_mem h

theorem parse_checksums :
    ChecksumList.parse (r.checksums options.format).render = .ok (r.checksums options.format) := by
  refine ChecksumList.parse_render (fun e mem => ?_) fun e mem => ?_
  · obtain ⟨a, -, rfl, -⟩ := checksums_entries plain mem
    exact ChecksumList.isDigest_checksum _
  · obtain ⟨a, -, rfl, line⟩ := checksums_entries plain mem
    exact line

end Plain

end ProductSpec.Release
