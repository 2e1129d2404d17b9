/-
  Released files that are changed afterwards: a release that has a list of checksums is loaded only
  if each file that the list names has the checksum that it had when it was released.
-/
import ProductSpec.Proofs.Store.Contents
import ProductSpec.Proofs.Store.History

namespace ProductSpec

open FileAction FileTree

/-- A world in which what was at a place is missing. -/
def World.without (w : World) (q : FilePlace) : World := { w with tree := w.tree.erase q }

theorem World.holds_without {w : World} {q q' : FilePlace} {content : ByteArray} :
    (w.without q).Holds q' content ↔ q' ≠ q ∧ w.Holds q' content := by
  unfold World.Holds
  by_cases same : q' = q
  · subst same
    refine iff_of_false ?_ fun other => other.1 rfl
    rintro ⟨time, found⟩
    rw [World.without, get?_erase_self (ne_nil_of_get? found nofun)] at found
    cases found
  · have kept : (w.without q).tree.get? q' = w.tree.get? q' :=
      get?_congr (by rw [World.without, entriesAt_erase, if_neg same])
    rw [kept]
    exact (and_iff_right same).symm

namespace ChecksumList

variable {w w' : World} {directory : FilePath}

/-- Files that have been verified have the checksums that are listed. -/
theorem verified_of_verifyEntries {listed : List (String × String)}
    (h : Yields (verifyEntries directory listed) w (.ok ()) w') :
    ∀ e ∈ listed, ∃ content, w.LeadsToFile (directory.join e.1) content ∧
      checksum content = e.2 := by
  induction listed generalizing w with
  | nil => exact nofun
  | cons e rest ih =>
    obtain ⟨content, w₁, read, compared⟩ := h.bind_ok
    obtain ⟨leads, alike⟩ := read.of_readBytes
    by_cases same : checksum content = e.2
    · have others : Yields (verifyEntries directory rest) w₁ (.ok ()) w' := by
        rwa [if_neg (not_not_intro same)] at compared
      refine List.forall_mem_cons.2 ⟨⟨content, leads, same⟩, fun e' mem => ?_⟩
      obtain ⟨content', leads', same'⟩ := ih others e' mem
      exact ⟨content', alike.leadsToFile.1 leads', same'⟩
    · rw [if_pos same] at compared
      cases (compared.unique (yields_throw _ w₁)).1

end ChecksumList

namespace Store

variable {s : Store} {w w' : World} {tag : String}

/-- A manifest that has been read is in its place. -/
theorem manifest_ok {m : Manifest} (h : Yields (s.manifest tag) w (.ok m) w') :
    (∃ content, w.LeadsToFile (s.manifestPath tag) content) ∧ w.Alike w' := by
  obtain ⟨isThere, asked, there⟩ := yields_isFile (s.manifestPath tag) w
  obtain ⟨isThere', w₁, asked', afterAsked⟩ := h.bind_ok
  obtain ⟨same, rfl⟩ := asked.unique asked'
  obtain rfl := Except.ok.inj same
  cases isThere with
  | false => cases (afterAsked.unique (yields_throw (.notFound "version" tag) w)).1
  | true =>
    refine ⟨there.1 rfl, ?_⟩
    obtain ⟨text, w₁, read, decoding⟩ := Yields.bind_ok afterAsked
    obtain ⟨-, rfl⟩ := decoding.ofOption_ok
    exact read.of_readText.2

/-- What is loaded agrees with the list of checksums that is beside it. -/
theorem verified_of_load {loaded : Release} {text : String}
    (h : Yields (s.load tag) w (.ok loaded) w')
    (list : w.Holds (resolve w.directory (s.versionDir tag) ++ [checksumsName]) text.toUTF8) :
    ∃ l, ChecksumList.parse text = .ok l ∧ ∀ e ∈ l.entries.entries, ∃ content,
      w.LeadsToFile ((s.versionDir tag).join e.1) content ∧ checksum content = e.2 := by
  obtain ⟨m, w₁, read, afterManifest⟩ := h.bind_ok
  obtain ⟨⟨_, q, _, placed, -⟩, alike⟩ := manifest_ok read
  obtain ⟨time, found⟩ := list
  have leads : w.LeadsToFile ((s.versionDir tag).join checksumsName) text.toUTF8 :=
    ⟨_, time, World.reaches_of_places Release.isPieceName_manifest placed checksumsName
      Release.isPieceName_checksums, found⟩
  obtain ⟨isThere, asked, there⟩ := yields_isFile ((s.versionDir tag).join checksumsName) w₁
  obtain rfl : isThere = true := there.2 ⟨_, alike.leadsToFile.2 leads⟩
  obtain ⟨_, w₂, asked', verifying⟩ := Yields.bind_ok afterManifest
  obtain ⟨same, rfl⟩ := asked.unique asked'
  cases same
  obtain ⟨text', w₃, readList, parsing⟩ := Yields.bind_ok verifying
  obtain ⟨leads', alike'⟩ := readList.of_readText
  obtain rfl : text' = text :=
    String.toByteArray_inj.1 ((alike.leadsToFile.1 leads').unique leads)
  obtain ⟨l, w₄, given, comparing⟩ := Yields.bind_ok parsing
  obtain ⟨parsed, rfl⟩ := given.unique (yields_ofExcept _ w₃)
  obtain ⟨_, w₅, verified, -⟩ := Yields.bind_ok comparing
  refine ⟨l, mapError_eq_ok.1 parsed.symm, fun e mem => ?_⟩
  obtain ⟨content, leads, same⟩ := ChecksumList.verified_of_verifyEntries verified e mem
  exact ⟨content, alike.leadsToFile.1 (alike'.leadsToFile.1 leads), same⟩

/-- The place of a file of a release. -/
def filePlace (s : Store) (directory : FilePlace) (tag file : String) : FilePlace :=
  s.entry directory (Version.dirName tag) ++ [file]

variable {r : Release} {v : Version} {options : StoreOptions}

/-- If the list of checksums is the one of a release, so are the checksums of what is loaded. -/
theorem covered_of_load {loaded : Release} (checked : Version.ofCheckedTag? tag = some v)
    (plain : r.HasPlainNames)
    (list : w.Holds (s.filePlace w.directory tag checksumsName)
      (r.checksums options.format).render.toUTF8) (h : Yields (s.load tag) w (.ok loaded) w') :
    ∀ a ∈ r.covered options.format, ∃ content,
      w.Holds (s.filePlace w.directory tag a.file) content ∧ checksum content = a.checksum := by
  have place : resolve w.directory (s.versionDir tag) =
      s.entry w.directory (Version.dirName tag) := by
    rw [versionDir_of_checked s checked]
    exact resolve_child (isPieceName_dirName (Version.ofTag?_of_ofCheckedTag? checked))
  rw [filePlace, ← place] at list
  obtain ⟨l, parsed, verified⟩ := verified_of_load h list
  rw [Release.parse_checksums plain] at parsed
  obtain rfl := Except.ok.inj parsed
  intro a mem
  have isName := Release.isPieceName_artifact plain ((Release.covered_sublist _ r).subset mem)
  obtain ⟨content, ⟨q, time, placed, found⟩, same⟩ := verified _ (Release.mem_checksums plain mem)
  obtain rfl : q = s.filePlace w.directory tag a.file := by
    rw [place_eq_resolve placed, resolve_child isName, place, filePlace]
  exact ⟨content, ⟨time, found⟩, same⟩

/-- Once a release has been added, its files may be replaced or removed at will, but for the list of
checksums. If it can still be loaded then, the files of its products and its JSON Schema are those
that were written, byte for byte, unless one of them was replaced by another content with the same
checksum. -/
theorem load_untampered {root : String} {options options' : StoreOptions}
    {products : NameMap Dataset} {tag : String} {w written later w' : World} {r loaded : Release}
    (proper : w.Proper) (names : ∀ e ∈ products.entries, IsProductName e.1)
    (withChecksums : options.writeChecksums = true)
    (frozen : Yields (freeze ⟨root, options⟩ products tag) w (.ok r) written)
    (directory : later.directory = w.directory)
    (left : ∀ content,
      written.Holds (filePlace ⟨root, options⟩ w.directory tag checksumsName) content →
        later.Holds (filePlace ⟨root, options⟩ w.directory tag checksumsName) content)
    (noCollision : ∀ a ∈ r.covered options.format, ∀ content,
      later.Holds (filePlace ⟨root, options⟩ w.directory tag a.file) content →
        checksum content = a.checksum → content = a.content.toUTF8)
    (loads : Yields (load ⟨root, options'⟩ tag) later (.ok loaded) w') :
    r.products = products ∧ ∀ a ∈ r.covered options.format,
      written.Holds (filePlace ⟨root, options⟩ w.directory tag a.file) a.content.toUTF8 ∧
        later.Holds (filePlace ⟨root, options⟩ w.directory tag a.file) a.content.toUTF8 := by
  let s : Store := ⟨root, options⟩
  obtain ⟨⟨now, made⟩, plain, files⟩ :=
    hasFiles_freeze proper (FilePath.isWritten_ofText root) names frozen
  obtain ⟨v, checked, form⟩ := Release.make?_eq_some.1 made
  have asWritten {a : Release.Artifact} (mem : a ∈ r.artifacts options) :
      written.Holds (s.filePlace w.directory tag a.file) a.content.toUTF8 :=
    files _ _ (Release.files_eq_some plain mem)
  have list := left _ (asWritten (Release.mem_artifacts.2 (.inr (.inr (.inr ⟨withChecksums, rfl⟩)))))
  rw [← directory] at list
  refine ⟨by rw [form], fun a mem => ⟨asWritten ((Release.covered_sublist _ r).subset mem), ?_⟩⟩
  obtain ⟨content, holds, same⟩ := covered_of_load checked plain list loads a mem
  rw [directory] at holds
  exact noCollision a mem content holds same ▸ holds

def coreCall : FreezeCall := ⟨.standard, coreProducts, "2.0.0"⟩

theorem floats_core {e : String × Dataset} (h : e ∈ coreProducts.entries) :
    e.2.floats = [] := by
  obtain rfl := List.mem_singleton.1 h
  rw [Group.floats_eq]
  rfl

theorem regular_coreCall : coreCall.Regular where
  plain e mem := by
    obtain rfl := List.mem_singleton.1 mem
    exact ⟨⟨by decide, by decide, by decide, by decide, by decide⟩, by decide⟩
  finite e mem x isIn := by
    rw [floats_core mem] at isIn
    cases isIn

/-- The release of it is added, and it can be loaded. -/
theorem freeze_load_core : ∃ r written loaded,
    Yields (freeze ⟨"store", .standard⟩ coreProducts "2.0.0") emptyWorld (.ok r) written ∧
      Yields (load ⟨"store", .standard⟩ "2.0.0") written (.ok loaded) written := by
  obtain ⟨result, written, frozen⟩ : ∃ result written,
      Yields (freeze ⟨"store", .standard⟩ coreProducts "2.0.0") emptyWorld result written :=
    ⟨_, _, yields_run _ emptyWorld⟩
  have run : Run (FilePath.ofText "store") emptyWorld [(coreCall, result)] written :=
    .call .start frozen
  obtain ⟨keeps, apart, answers⟩ := run.keeps fresh_emptyWorld (FilePath.pieces_ofText_ne_nil _)
    fun e mem => List.mem_singleton.1 mem ▸ regular_coreCall
  have answer := answers [] coreCall result [] rfl
  obtain ⟨r, rfl⟩ := answer.exists_eq_ok_iff.2 ⟨by decide +kernel, nofun⟩
  obtain ⟨now, made⟩ := answer.make?
  obtain ⟨v, -, rfl⟩ := Release.make?_eq_some.1 made
  have readable : Release.Readable ⟨coreCall.tag, v, now, coreProducts,
      JsonSchema.ofProducts coreProducts⟩ := by
    have schema : (JsonSchema.ofProducts coreProducts).depth ≤ Json.depthLimit := by decide +kernel
    refine ⟨fun e mem => ⟨?_, fun x isIn => ?_⟩, schema⟩
    · obtain rfl := List.mem_singleton.1 mem
      decide +kernel
    · rw [floats_core mem] at isIn
      cases isIn
  exact ⟨_, written, _, frozen,
    (keeps.load .standard apart List.mem_cons_self).yields_iff.2 ⟨readable, rfl⟩⟩

/-- A release that nobody has touched is loaded, and one that lacks a file is not. -/
theorem load_untampered_core : ∃ r written loaded,
    Yields (freeze ⟨"store", .standard⟩ coreProducts "2.0.0") emptyWorld (.ok r) written ∧
    Yields (load ⟨"store", .standard⟩ "2.0.0") written (.ok loaded) written ∧
    (∀ a ∈ r.covered .pretty, written.Holds ["store", "v2.0.0", a.file] a.content.toUTF8) ∧
    ∀ loaded w', ¬ Yields (load ⟨"store", .standard⟩ "2.0.0")
      (written.without ["store", "v2.0.0", "core.json"]) (.ok loaded) w' := by
  have proper : emptyWorld.Proper := ⟨.empty, nofun⟩
  have names : ∀ e ∈ coreProducts.entries, IsProductName e.1 := fun e mem =>
    List.mem_singleton.1 mem ▸ ⟨by decide, by decide, by decide, by decide, by decide⟩
  have place (file : String) : filePlace ⟨"store", .standard⟩ emptyWorld.directory "2.0.0" file =
      ["store", "v2.0.0", file] := by
    have root : resolve emptyWorld.directory (FilePath.ofText "store") = ["store"] := by
      decide +kernel
    have release : Version.dirName "2.0.0" = "v2.0.0" := by decide +kernel
    rw [filePlace, entry, root, release]
    rfl
  obtain ⟨r, written, loaded, frozen, loads⟩ := freeze_load_core
  obtain ⟨-, plain, files⟩ := hasFiles_freeze proper (FilePath.isWritten_ofText "store") names frozen
  have asWritten {a : Release.Artifact} (mem : a ∈ r.covered .pretty) {content : ByteArray}
      (holds : written.Holds (filePlace ⟨"store", .standard⟩ emptyWorld.directory "2.0.0" a.file)
        content) : content = a.content.toUTF8 :=
    holds.unique (files _ _ (Release.files_eq_some plain ((Release.covered_sublist _ r).subset mem)))
  obtain ⟨products, untampered⟩ := load_untampered proper names rfl frozen frozen.directory
    (fun _ => id) (fun a mem content holds _ => asWritten mem holds) loads
  simp only [place] at untampered asWritten
  refine ⟨r, written, loaded, frozen, loads, fun a mem => (untampered a mem).1, ?_⟩
  intro loaded w' loads
  have directory : (written.without ["store", "v2.0.0", "core.json"]).directory =
      emptyWorld.directory := frozen.directory
  obtain ⟨-, tampered⟩ := load_untampered proper names rfl frozen directory
    (fun content holds => by
      rw [place] at holds ⊢
      exact World.holds_without.2 ⟨by decide, holds⟩)
    (fun a mem content holds _ => by
      rw [place] at holds
      exact asWritten mem (World.holds_without.1 holds).2) loads
  have mem : Release.productArtifact .pretty "core" ⟨"core", .plain, [], [], [], []⟩ ∈
      r.covered .pretty := by
    refine List.mem_append_left _ (Release.mem_productArtifacts.2 ?_)
    rw [products]
    exact ⟨_, List.mem_cons_self, rfl⟩
  have holds := (tampered _ mem).2
  rw [place] at holds
  exact (World.holds_without.1 holds).1 rfl

end Store

end ProductSpec
