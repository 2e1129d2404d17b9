/-
  Reading a release back out of a directory that holds its files: the checksums are right, and
  what is read is the release if each of its documents is read back as it was written.
-/
import ProductSpec.Proofs.Dataset.RoundTrip
import ProductSpec.Proofs.Store.Artifacts
import ProductSpec.Proofs.Store.Manifest
import ProductSpec.Proofs.Store.Operation

namespace ProductSpec

namespace Release

/-- A release as it is made of products with plain names and finite floats. -/
structure Regular (r : Release) : Prop where
  checked : Version.ofCheckedTag? r.tag = some r.version
  time : r.createdAt.isValid = true
  schema : r.jsonSchema = JsonSchema.ofProducts r.products
  plain : r.HasPlainNames
  finite : ∀ e ∈ r.products.entries, ∀ x ∈ e.2.floats, x.isFinite = true

/-- A release whose documents can be read. -/
structure Readable (r : Release) : Prop where
  products : ∀ e ∈ r.products.entries, e.2.Readable
  schema : r.jsonSchema.depth ≤ Json.depthLimit

/-- What is read out of the documents of a release. -/
def reread (r : Release) : Release := { r with products := r.products.mapValues Group.reread }

/-- A release whose documents are all read back as they were written. -/
structure ReadsBack (r : Release) : Prop where
  products : ∀ e ∈ r.products.entries, e.2.ReadsBack
  schema : r.jsonSchema.depth ≤ Json.depthLimit

theorem reread_eq_self_iff {r : Release} :
    r.reread = r ↔ ∀ e ∈ r.products.entries, e.2.reread = e.2 := by
  rw [← NameMap.mapValues_eq_self_iff]
  exact ⟨congrArg products, fun same => by rw [reread, same]⟩

theorem readsBack_iff {r : Release} : r.ReadsBack ↔ r.Readable ∧ r.reread = r := by
  rw [reread_eq_self_iff]
  constructor
  · rintro ⟨products, schema⟩
    exact ⟨⟨fun e mem => (Group.readsBack_iff.1 (products e mem)).1, schema⟩,
      fun e mem => (Group.readsBack_iff.1 (products e mem)).2⟩
  · rintro ⟨⟨products, schema⟩, same⟩
    exact ⟨fun e mem => Group.readsBack_iff.2 ⟨products e mem, same e mem⟩, schema⟩

end Release

theorem OutputFormat.render_eq (format : OutputFormat) :
    ∃ l, ∀ j, format.render j = Json.write l j := by
  cases format with
  | pretty => exact ⟨some 0, fun _ => rfl⟩
  | compact => exact ⟨none, fun _ => rfl⟩

theorem decodeDocument_ok (text : String) : decodeDocument .ok text = Json.read? text := by
  rw [decodeDocument]
  cases Json.read? text <;> rfl

theorem Release.decodeDocument_schema {r : Release}
    (schema : r.jsonSchema = JsonSchema.ofProducts r.products) (format : OutputFormat) {j : Json} :
    decodeDocument .ok (r.schemaArtifact format).content = some j ↔
      r.jsonSchema.depth ≤ Json.depthLimit ∧ j = r.jsonSchema := by
  obtain ⟨l, layout⟩ := format.render_eq
  have exact : r.jsonSchema.Exact := schema ▸ JsonSchema.exact_ofProducts r.products
  rw [decodeDocument_ok, schemaArtifact, layout, exact.read?_write]

/-- A product out of a file that holds its document. -/
theorem Dataset.yieldsIf_load {d : Dataset} (finite : ∀ x ∈ d.floats, x.isFinite = true)
    {format : OutputFormat} {product : String} {path : FilePath} {w : World}
    (read : FileAction.Yields (FileAction.readText path) w
      (.ok (Release.productArtifact format product d).content) w) :
    FileAction.YieldsIf (Dataset.load path) w d.Readable d.reread := by
  refine .after read (.ofOption w fun loaded => ?_)
  obtain ⟨l, layout⟩ := format.render_eq
  rw [Release.productArtifact, layout]
  exact Group.decodeDocument_write finite

namespace Site.Shows

open FileAction Store

variable {site : Site} {shelf : Shelf} {w : World} {a : String} {options options' : StoreOptions}
  {r : Release} {x : Release.Artifact}

section Files

variable (h : site.Shows shelf w) (name : IsPieceName a)
  (folder : shelf a = some (.folder (r.files options))) (plain : r.HasPlainNames)

include h name folder plain

theorem readText_artifact (mem : x ∈ r.artifacts options) :
    Yields (FileAction.readText ((site.root.join a).join x.file)) w (.ok x.content) w :=
  h.readText name (Release.isPieceName_artifact plain mem) folder
    (Release.files_eq_some plain mem)

theorem readDocument_artifact {α : Type} {decode : Json → Json.Decoded α} {p : Prop} {value : α}
    (mem : x ∈ r.artifacts options)
    (read : ∀ value', decodeDocument decode x.content = some value' ↔ p ∧ value' = value) :
    YieldsIf (readDocument decode ((site.root.join a).join x.file)) w p value :=
  .after (h.readText_artifact name folder plain mem) (.ofOption w read)

theorem verifyEntries {listed : List (String × String)}
    (all : ∀ e ∈ listed, ∃ x ∈ r.artifacts options, e = (x.file, x.checksum)) :
    Yields (ChecksumList.verifyEntries (site.root.join a) listed) w (.ok ()) w := by
  induction listed with
  | nil => exact yields_pure () w
  | cons e rest ih =>
    obtain ⟨⟨x, mem, rfl⟩, others⟩ := List.forall_mem_cons.1 all
    have read := h.readBytes name (Release.isPieceName_artifact plain mem) folder
      (Release.files_eq_some plain mem)
    -- The bytes that are read are those that the checksum was taken of.
    have right : Yields (do
        if x.checksum ≠ x.checksum then throw (.checksumMismatch x.file x.checksum x.checksum)
        ChecksumList.verifyEntries (site.root.join a) rest) w (.ok ()) w := by
      rw [if_neg (not_not_intro rfl)]
      exact ih others
    exact read.bind right

/-- The checksums of a release are those of its files. -/
theorem verify_checksums :
    Yields ((r.checksums options.format).verify (site.root.join a)) w (.ok ()) w := by
  refine h.verifyEntries name folder plain fun e mem => ?_
  obtain ⟨x, isIn, form, -⟩ := Release.checksums_entries plain mem
  exact ⟨x, isIn, form⟩

theorem loadProduct {e : String × Dataset} (mem : e ∈ r.products.entries)
    (finite : ∀ x ∈ e.2.floats, x.isFinite = true) :
    YieldsIf (Dataset.load ((site.root.join a).join (Release.productFile e.1))) w e.2.Readable
      e.2.reread := by
  have isArtifact : Release.productArtifact options.format e.1 e.2 ∈ r.artifacts options :=
    Release.mem_artifacts.2 (.inl (Release.mem_productArtifacts.2 ⟨e, mem, rfl⟩))
  have read := h.readText_artifact name folder plain isArtifact
  rw [Release.file_productArtifact] at read
  exact Dataset.yieldsIf_load finite read

/-- The products that a list of entries names are read in turn. -/
theorem loadProducts (entry : String × Dataset → ProductEntry)
    (file : ∀ e, (entry e).file = Release.productFile e.1) {entries : List (String × Dataset)}
    (known : ∀ e ∈ entries, e ∈ r.products.entries)
    (finite : ∀ e ∈ entries, ∀ x ∈ e.2.floats, x.isFinite = true) :
    YieldsIf (Store.loadProducts (site.root.join a) (entries.map fun e => (e.1, entry e))) w
      (∀ e ∈ entries, e.2.Readable) (entries.map fun e => (e.1, e.2.reread)) := by
  induction entries with
  | nil => exact ⟨.ok [], yields_pure [] w, by simp [eq_comm]⟩
  | cons e rest ih =>
    obtain ⟨isKnown, known⟩ := List.forall_mem_cons.1 known
    obtain ⟨isFinite, finite⟩ := List.forall_mem_cons.1 finite
    have first := h.loadProduct name folder plain isKnown isFinite
    rw [← file e] at first
    refine (first.bind (ih known finite).bind_pure).congr ?_
    rw [List.forall_mem_cons]

end Files

/-- The documents of a release are read. -/
theorem loadDocuments (h : site.Shows shelf w) (name : IsPieceName a)
    (folder : shelf a = some (.folder (r.files options))) (regular : r.Regular) :
    YieldsIf (do
      let products ← Store.loadProducts (site.root.join a)
        (r.manifest options.format).products.toList
      let jsonSchema ← readDocument .ok ((site.root.join a).join schemaName)
      return (⟨r.tag, r.version, r.createdAt, .ofList products, jsonSchema⟩ : Release)) w
      r.Readable r.reread := by
  have products := h.loadProducts name folder regular.plain
    (fun e => ⟨Release.productFile e.1,
      (Release.productArtifact options.format e.1 e.2).checksum, .ofNat e.2.nodeCount⟩)
    (fun e => rfl) (fun e mem => mem) regular.finite
  have mem : r.schemaArtifact options.format ∈ r.artifacts options :=
    Release.mem_artifacts.2 (.inr (.inl rfl))
  have schema := h.readDocument_artifact name folder regular.plain mem fun j =>
    Release.decodeDocument_schema regular.schema options.format
  have value : r.reread = ⟨r.tag, r.version, r.createdAt,
      .ofList (r.products.entries.map fun e => (e.1, e.2.reread)), r.jsonSchema⟩ :=
    congrArg (fun products => { r with products })
      (NameMap.ofList_entries (r.products.mapValues Group.reread)).symm
  rw [value]
  refine (products.bind (schema.bind_pure (f := fun j => (⟨r.tag, r.version, r.createdAt,
    .ofList (r.products.entries.map fun e => (e.1, e.2.reread)), j⟩ : Release)))).congr ?_
  exact ⟨fun ⟨products, schema⟩ => ⟨products, schema⟩, fun ⟨products, schema⟩ => ⟨products, schema⟩⟩

section Directory

variable (h : site.Shows shelf w) (name : IsPieceName a)
  (folder : shelf a = some (.folder (r.files options))) (regular : r.Regular)

include h name folder regular

theorem isFile_manifest :
    Yields (FileAction.isFile ((site.root.join a).join manifestName)) w (.ok true) w := by
  have mem : r.manifestArtifact options.format ∈ r.artifacts options :=
    Release.mem_artifacts.2 (.inr (.inr (.inl rfl)))
  have found := h.isFile name Release.isPieceName_manifest folder
  rwa [show r.files options manifestName = _ from Release.files_eq_some regular.plain mem] at found

/-- The manifest in the directory of a release is that of the release. -/
theorem readManifest :
    Yields (readDocument Manifest.decode ((site.root.join a).join manifestName)) w
      (.ok (r.manifest options.format)) w := by
  have mem : r.manifestArtifact options.format ∈ r.artifacts options :=
    Release.mem_artifacts.2 (.inr (.inr (.inl rfl)))
  have valid := Version.valid_of_ofTag? (Version.ofTag?_of_ofCheckedTag? regular.checked)
  have decoded : decodeDocument Manifest.decode (r.manifestArtifact options.format).content =
      some (r.manifest options.format) :=
    Manifest.decodeDocument_write (m := r.manifest options.format) valid regular.time (some 0)
  refine (h.readDocument_artifact name folder regular.plain mem fun m => ?_).yields_iff.2
    ⟨trivial, rfl⟩
  rw [decoded, Option.some.injEq, true_and, eq_comm]

variable {tag : String} (dir : Store.versionDir ⟨site.root, options'⟩ tag = site.root.join a)

include dir

theorem manifest : Yields (Store.manifest ⟨site.root, options'⟩ tag) w
    (.ok (r.manifest options.format)) w := by
  rw [Store.manifest, contains, manifestPath, dir]
  exact (h.isFile_manifest name folder regular).bind (h.readManifest name folder regular)

/-- What is loaded from the directory of a release is what is read out of its documents. -/
theorem load : YieldsIf (Store.load ⟨site.root, options'⟩ tag) w r.Readable r.reread := by
  have manifest := h.manifest name folder regular dir
  have listed := h.isFile name Release.isPieceName_checksums folder
  have documents := h.loadDocuments name folder regular
  rw [Store.load, dir]
  refine .after manifest ?_
  -- Without a list of checksums there is nothing to verify; otherwise it is read back and agrees.
  cases isWritten : options.writeChecksums with
  | false =>
    rw [Release.files_checksums_of_none isWritten] at listed
    exact .after listed documents
  | true =>
    have mem : (⟨checksumsName, (r.checksums options.format).render⟩ : Release.Artifact) ∈
        r.artifacts options := Release.mem_artifacts.2 (.inr (.inr (.inr ⟨isWritten, rfl⟩)))
    rw [show r.files options checksumsName = _ from Release.files_eq_some regular.plain mem]
      at listed
    have parsed : Yields (ChecksumList.ofText (r.checksums options.format).render) w
        (.ok (r.checksums options.format)) w := by
      rw [ChecksumList.ofText, Release.parse_checksums regular.plain]
      rfl
    have text := h.readText_artifact name folder regular.plain mem
    have verified := h.verify_checksums name folder regular.plain
    exact .after listed (.after text (.after parsed (.after verified documents)))

end Directory

end Site.Shows

end ProductSpec
