/-
  Single products read out of the files of releases. A product that is read gives the reports of
  the dataset that was released just when it is that dataset.
-/
import ProductSpec.Proofs.Dataset.Decode
import ProductSpec.Proofs.Store.History
import ProductSpec.Proofs.Validation.Floats

namespace ProductSpec

open FileAction Number Json

/-- A finite float that is read as an equal one is read as itself. -/
theorem rereadFloat_eq_of_beq {x : Double} (finite : x.isFinite = true)
    (equal : (x == rereadFloat x) = true) : rereadFloat x = x := by
  cases x with
  | nan | infinite => cases finite
  | finite negative significand shift canonical =>
    by_cases zero : significand = 0
    · -- The two zeros are equal, and each keeps its sign.
      subst zero
      have least : shift = 0 := canonical.2.1.resolve_left (by decide)
      subst least
      have zeros : ∀ sign, rereadFloat (.finite sign 0 0 (by decide)) =
          .finite sign 0 0 (by decide) := by decide +kernel
      exact zeros negative
    · cases read : rereadFloat (.finite negative significand shift canonical) with
      | nan | infinite => rw [read] at equal; cases equal
      | finite negative' significand' shift' canonical' =>
        rw [read] at equal
        have parts := (Bool.and_eq_true _ _).mp equal
        simp only [Bool.and_eq_true, Bool.or_eq_true, beq_iff_eq, zero, false_or] at parts
        obtain ⟨⟨rfl, rfl⟩, rfl⟩ := parts
        rfl

namespace Group

theorem same_reports_iff {d : Dataset} (wf : d.WellFormed [])
    (finite : ∀ x ∈ d.floats, x.isFinite = true) :
    (∀ o file, d.reread.validate o file = d.validate o file) ↔ d.reread = d := by
  refine ⟨fun same => ?_, fun same o file => by rw [same]⟩
  refine (d.mapFloats_eq_self_iff rereadFloat).2 fun x mem => ?_
  exact rereadFloat_eq_of_beq (finite x mem) (equal_of_same_reports wf finite same x mem)

end Group

namespace Keeps

variable {root : FilePath} {w : World} {kept : List StoredRelease} {k : StoredRelease}

theorem noFault (h : Keeps root w kept) : w.fault = none := by
  cases h with
  | fresh isFresh => exact isFresh.noFault
  | shelf _ holds => exact holds.noFault

/-- The file of a product of a release that is kept. -/
theorem leadsToFile_product (options : StoreOptions) (h : Keeps root w kept)
    (apart : StoredRelease.Apart kept) (mem : k ∈ kept) {e : String × Dataset}
    (isIn : e ∈ k.release.products.entries) :
    w.LeadsToFile
      ((Store.versionDir ⟨root, options⟩ k.release.tag).join (Release.productFile e.1))
      (Release.productArtifact k.options.format e.1 e.2).content.toUTF8 := by
  cases h with
  | fresh isFresh => cases mem
  | shelf isRoot holds =>
    subst isRoot
    have regular := apart.regular k mem
    have isArtifact : Release.productArtifact k.options.format e.1 e.2 ∈
        k.release.artifacts k.options :=
      Release.mem_artifacts.2 (.inl (Release.mem_productArtifacts.2 ⟨e, isIn, rfl⟩))
    have read := holds.readText_artifact (Store.isPieceName_dirName (StoredRelease.tagged regular))
      (Shelf.holding_of_mem apart mem) regular.plain isArtifact
    rw [Release.file_productArtifact] at read
    rw [Store.versionDir_of_checked _ regular.checked]
    exact ((yields_readText_iff holds.noFault).1 read).1

end Keeps

/-- A product is read out of its document as it is if its floats are finite, and not at all
otherwise. Out of the file of a release it is read with its floats as they are read from text; it
gives the reports of the dataset that was released just when it is read back as it was written. -/
theorem Dataset.load_product {definition : Definition} {name : String} {defaults : Defaults}
    {d : Dataset} (compiled : definition.compileNamed name defaults = .ok d) :
    ((∀ x ∈ d.floats, x.isFinite = true) → Group.decode d.toJson = .ok d) ∧
    ((∃ x ∈ d.floats, x.isFinite = false) → Group.decode d.toJson = .error .shape) ∧
    ((∀ x ∈ d.floats, x.isFinite = true) → ∀ (format : OutputFormat) (product : String)
      (path : FilePath) (w : World), w.fault = none →
      w.LeadsToFile path (Release.productArtifact format product d).content.toUTF8 →
      (∀ loaded, Yields (Dataset.load path) w (.ok loaded) w ↔
        d.Readable ∧ loaded = d.reread) ∧
      ((∃ loaded, Yields (Dataset.load path) w (.ok loaded) w ∧
        ∀ o file, loaded.validate o file = d.validate o file) ↔ d.ReadsBack)) := by
  have wf : d.WellFormed [] := (Section.of_compile definition.body compiled).2.2
  obtain ⟨asItIs, notAtAll⟩ := d.decode_toJson_cases
  refine ⟨asItIs, notAtAll, fun finite format product path w noFault leads => ?_⟩
  have loads := Dataset.yieldsIf_load finite ((yields_readText_iff noFault).2 ⟨leads, rfl⟩)
  refine ⟨fun loaded => loads.yields_iff, ?_⟩
  rw [Group.readsBack_iff]
  constructor
  · rintro ⟨loaded, yields, same⟩
    obtain ⟨readable, rfl⟩ := loads.yields_iff.1 yields
    exact ⟨readable, (Group.same_reports_iff wf finite).1 same⟩
  · rintro ⟨readable, same⟩
    exact ⟨d.reread, loads.yields_iff.2 ⟨readable, rfl⟩, fun o file => by rw [same]⟩

/-- The definition of `electron`. -/
def electronDefinition : Definition where
  shortName := none
  filePattern := none
  description := none
  canonicalName := none
  body := ⟨⟨[(.text "charge", .float electronCharge)], by decide⟩, [], [], []⟩

/-- The charge of an electron is not read as it was released. -/
theorem load_product_electron :
    electronDefinition.compileNamed "electron" .empty = .ok electron ∧
    Group.decode electron.toJson = .ok electron ∧
    ∃ r w, Run (FilePath.ofText "store") emptyWorld [(electronCall, .ok r)] w ∧
      ¬ ∃ loaded, Yields (Dataset.load ((Store.versionDir ⟨FilePath.ofText "store", .standard⟩
          "1.0.0").join "electron.json")) w (.ok loaded) w ∧
        ∀ o file, loaded.validate o file = electron.validate o file := by
  have compiled : electronDefinition.compileNamed "electron" .empty = .ok electron := rfl
  have finite : ∀ x ∈ electron.floats, x.isFinite = true :=
    regular_electronCall.finite ("electron", electron) List.mem_cons_self
  obtain ⟨asItIs, -, fromFile⟩ := Dataset.load_product compiled
  refine ⟨compiled, asItIs finite, ?_⟩
  let action := Store.freeze ⟨FilePath.ofText "store", electronCall.options⟩ electronCall.products
    electronCall.tag
  have run : Run (FilePath.ofText "store") emptyWorld [(electronCall, _)] _ :=
    .call .start (yields_run action emptyWorld)
  obtain ⟨keeps, apart, answers⟩ := run.keeps fresh_emptyWorld (FilePath.pieces_ofText_ne_nil _)
    fun e mem => List.mem_singleton.1 mem ▸ regular_electronCall
  have answer := answers [] electronCall _ [] rfl
  obtain ⟨r, added⟩ := answer.exists_eq_ok_iff.2 ⟨by decide +kernel, nofun⟩
  rw [added] at run keeps apart answer
  obtain ⟨now, made⟩ := answer.make?
  obtain ⟨v, -, rfl⟩ := Release.make?_eq_some.1 made
  have leads := keeps.leadsToFile_product .standard apart List.mem_cons_self
    (e := ("electron", electron)) List.mem_cons_self
  obtain ⟨-, iff⟩ := fromFile finite _ _ _ _ keeps.noFault leads
  exact ⟨_, _, run, fun loaded => not_readsBack_electron (iff.1 loaded)⟩

end ProductSpec
