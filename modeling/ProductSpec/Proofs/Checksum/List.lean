/-
  Lists of checksums read back out of their texts: the names of the files must be trimmed and on
  one line, and the checksums are digits. No other names are ever read out of a text.
-/
import ProductSpec.Checksum.List
import ProductSpec.Proofs.NameMap
import ProductSpec.Proofs.Outcome
import ProductSpec.Proofs.Text.Words

namespace ProductSpec

open Text

/-- The characters of a checksum. -/
def hexDigits : List Char := "0123456789abcdef".toList

theorem Sha256.mem_hexDigest {message : List UInt8} {c : Char} (h : c ∈ hexDigest message) :
    c ∈ hexDigits := by
  have digit : ∀ n, hexDigit n ∈ hexDigits := by
    intro n
    by_cases small : n < 16
    · have table : ∀ n < 16, hexDigit n ∈ hexDigits := by decide
      exact table n small
    · have none : hexDigit n = '0' := by
        rw [hexDigit, List.getD_eq_getElem?_getD, List.getElem?_eq_none (Nat.not_lt.1 small)]
        rfl
      rw [none]
      decide
  simp only [hexDigest, List.mem_flatMap, hexByte, List.mem_cons, List.not_mem_nil, or_false] at h
  obtain ⟨_, -, _, -, rfl | rfl⟩ := h <;> exact digit _

namespace ChecksumList

/-- A checksum as it is computed. -/
def IsDigest (s : String) : Prop := s.toList ≠ [] ∧ ∀ c ∈ s.toList, c ∈ hexDigits

theorem isDigest_checksum (content : ByteArray) : IsDigest (checksum content) := by
  rw [IsDigest, checksum, String.toList_ofList]
  refine ⟨fun none => ?_, fun c mem => Sha256.mem_hexDigest mem⟩
  have length := Sha256.length_hexDigest content.toList
  rw [none] at length
  cases length

theorem isBlank_of_mem_hexDigits {c : Char} (h : c ∈ hexDigits) :
    isBlank c = false ∧ c ≠ '\n' := by
  have table : hexDigits.all (fun c => !isBlank c && c != '\n') = true := by decide
  simpa using List.all_eq_true.1 table c h

/-- The name of a file that a line can hold. -/
structure IsLineName (name : String) : Prop where
  oneLine : '\n' ∉ name.toList
  trimmed : IsTrimmed name.toList

/-- A line without its line break. -/
def lineText (e : String × String) : List Char := e.2.toList ++ ' ' :: ' ' :: e.1.toList

theorem toList_render (l : ChecksumList) :
    l.render.toList = (l.entries.entries.map lineText).flatMap (· ++ ['\n']) := by
  simp [render, NameMap.toList, String.toList_join, List.flatMap_map, lineText, renderLine]

theorem isTrimmed_digest {s : String} (h : IsDigest s) : IsTrimmed s.toList where
  first c mem := (isBlank_of_mem_hexDigits (h.2 c (List.mem_of_mem_head? mem))).1
  last c mem := (isBlank_of_mem_hexDigits (h.2 c (List.mem_of_getLast? mem))).1

variable {e : String × String}

theorem parseLine_lineText (digest : IsDigest e.2) (name : IsLineName e.1) :
    parseLine (lineText e) = .ok e := by
  have noBlank : ' ' ∉ e.2.toList := fun mem => absurd (digest.2 _ mem) (by decide)
  rw [parseLine, lineText, splitFirstText_pair noBlank]
  simp only [trim_of_isTrimmed name.trimmed, trim_of_isTrimmed (isTrimmed_digest digest),
    String.ofList_toList]

theorem notMem_lineText (digest : IsDigest e.2) (name : IsLineName e.1) :
    '\n' ∉ lineText e := by
  have inDigest : '\n' ∉ e.2.toList := fun mem => absurd (digest.2 _ mem) (by decide)
  simp [lineText, inDigest, name.oneLine]

theorem dropReturn_lineText (name : IsLineName e.1) : dropReturn (lineText e) = lineText e := by
  refine dropReturn_eq_self fun h => ?_
  cases last : e.1.toList.getLast? with
  | none => simp [lineText, List.getLast?_cons, last] at h
  | some c =>
    have same : c = '\r' := by simpa [lineText, List.getLast?_cons, last] using h
    have blank := name.trimmed.last c last
    rw [same] at blank
    cases blank

theorem trim_lineText (digest : IsDigest e.2) : (trim (lineText e)).isEmpty = false :=
  List.isEmpty_eq_false_iff.2 (trim_ne_nil (isTrimmed_digest digest) digest.1)

/-- A list of computed checksums is read back out of its text. -/
theorem parse_render {l : ChecksumList} (digests : ∀ e ∈ l.entries.entries, IsDigest e.2)
    (names : ∀ e ∈ l.entries.entries, IsLineName e.1) : parse l.render = .ok l := by
  have cut : lines l.render.toList = l.entries.entries.map lineText := by
    rw [toList_render, lines_flatMap]
    · intro line mem
      obtain ⟨e, isIn, rfl⟩ := List.mem_map.1 mem
      exact notMem_lineText (digests e isIn) (names e isIn)
    · intro line mem
      obtain ⟨e, isIn, rfl⟩ := List.mem_map.1 mem
      exact dropReturn_lineText (names e isIn)
  have filled : (l.entries.entries.map lineText).filter (fun line => !(trim line).isEmpty) =
      l.entries.entries.map lineText := by
    refine List.filter_eq_self.2 fun line mem => ?_
    obtain ⟨e, isIn, rfl⟩ := List.mem_map.1 mem
    rw [trim_lineText (digests e isIn)]
    rfl
  have read : (l.entries.entries.map lineText).mapM parseLine = .ok l.entries.entries := by
    rw [mapM_eq_ok, List.forall₂_map_left_iff, List.forall₂_same]
    exact fun e isIn => parseLine_lineText (digests e isIn) (names e isIn)
  unfold parse
  rw [cut]
  simp only [filled]
  refine bind_eq_ok.2 ⟨_, read, ?_⟩
  rw [NameMap.ofList_entries]
  rfl

theorem isLineName_of_parseLine {line : List Char} (oneLine : '\n' ∉ line)
    (read : parseLine line = .ok e) : IsLineName e.1 := by
  rw [parseLine] at read
  split at read
  · next digest file cut =>
    cases read
    obtain ⟨before, after, -, -, form⟩ := exists_trim file
    refine ⟨fun mem => oneLine ?_, ?_⟩
    · rw [eq_of_splitFirstText cut, form]
      rw [String.toList_ofList] at mem
      exact List.mem_append_right _ (List.mem_append_left _ (List.mem_append_right _ mem))
    · rw [String.toList_ofList]
      exact isTrimmed_trim file
  · cases read

/-- Every name that is read is one that a line can hold. -/
theorem isLineName_of_parse {text : String} {l : ChecksumList} (read : parse text = .ok l)
    (mem : e ∈ l.entries.entries) : IsLineName e.1 := by
  obtain ⟨entries, each, same⟩ := bind_eq_ok.1 read
  cases same
  obtain ⟨line, isLine, found⟩ := exists_of_mem_mapM each (NameMap.mem_of_mem_ofList mem)
  exact isLineName_of_parseLine (notMem_of_mem_lines (List.mem_filter.1 isLine).1) found

/-- A list of computed checksums is read back out of its text just when each of its names is
trimmed and on one line. -/
theorem parse_render_iff {l : ChecksumList}
    (digests : ∀ e ∈ l.entries.entries, ∃ content, e.2 = checksum content) :
    parse l.render = .ok l ↔
      ∀ e ∈ l.entries.entries, '\n' ∉ e.1.toList ∧ IsTrimmed e.1.toList := by
  constructor
  · intro read e mem
    obtain ⟨oneLine, trimmed⟩ := isLineName_of_parse read mem
    exact ⟨oneLine, trimmed⟩
  · intro names
    refine parse_render (fun e mem => ?_) fun e mem => ⟨(names e mem).1, (names e mem).2⟩
    obtain ⟨content, same⟩ := digests e mem
    exact same ▸ isDigest_checksum content

/-- Blanks inside a name do no harm, a blank before it does. -/
theorem parse_render_iff_blanks :
    parse (empty.insert "a  b" (checksum .empty)).render =
        .ok (empty.insert "a  b" (checksum .empty)) ∧
      parse (empty.insert " a" (checksum .empty)).render ≠
        .ok (empty.insert " a" (checksum .empty)) := by
  have digests (file : String) : ∀ e ∈ (empty.insert file (checksum .empty)).entries.entries,
      ∃ content, e.2 = checksum content := by
    intro e mem
    obtain rfl := List.mem_singleton.1 mem
    exact ⟨_, rfl⟩
  constructor
  · refine (parse_render_iff (digests "a  b")).2 fun e mem => ?_
    obtain rfl := List.mem_singleton.1 mem
    decide
  · intro read
    have names := (parse_render_iff (digests " a")).1 read _ List.mem_cons_self
    exact absurd names (by decide)

end ChecksumList

end ProductSpec
