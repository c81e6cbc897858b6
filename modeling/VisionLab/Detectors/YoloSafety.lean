import Mathlib.Algebra.Order.Ring.Abs
import Mathlib.Data.List.ReduceOption
import VisionLab.Detectors.YoloDecoding

/-! When the YOLO decoder stays inside the tensors it is given. The shape check of the detector lets
any number of columns through, while the decoder counts on five and searches what follows them. -/
namespace VisionLab

theorem Rect.inter_inside {a b : Rect} (meet : (a.inter b).empty = false) :
    b.x ≤ (a.inter b).x ∧ b.y ≤ (a.inter b).y ∧
      (a.inter b).x + (a.inter b).width ≤ b.x + b.width ∧
      (a.inter b).y + (a.inter b).height ≤ b.y + b.height := by
  unfold Rect.inter at meet ⊢
  simp only at meet ⊢
  split at meet
  · simp [Rect.empty] at meet
  · rename_i apart
    rw [if_neg apart]
    refine ⟨Int.le_max_right _ _, Int.le_max_right _ _, ?_, ?_⟩ <;> simp only <;> omega

namespace Yolo

variable {F : Type}

section Rows

open SingleFloat

variable [SingleFloat F]

/-- The decoder reads the row `i` of the matrix inside the data and finds scores to search, if it
gets as far as the scores. -/
def RowReadable (confidenceThreshold : F) (out : YoloRows F) (i : ℕ) : Prop :=
  i * out.cols + 4 < out.data.length ∧
    ∀ objectness, out.data[i * out.cols + 4]? = some objectness →
      below objectness confidenceThreshold = false →
        5 < out.cols ∧ (i + 1) * out.cols ≤ out.data.length

def Readable (confidenceThreshold : F) (out : YoloRows F) : Prop :=
  ∀ i < out.rows, RowReadable confidenceThreshold out i

def InFrame (frameSize : Size) (box : Rect) : Prop :=
  box.empty = false ∧ 0 ≤ box.x ∧ 0 ≤ box.y ∧
    box.x + box.width ≤ frameSize.width ∧ box.y + box.height ≤ frameSize.height

theorem boxAt_inFrame {frameSize : Size} {x y width height : F}
    (some_ : (boxAt frameSize x y width height).empty = false) :
    InFrame frameSize (boxAt frameSize x y width height) := by
  obtain ⟨left, top, right, bottom⟩ := Rect.inter_inside some_
  simp only [Int.zero_add] at right bottom
  exact ⟨some_, left, top, right, bottom⟩

variable [OpenCv F] {frameSize : Size} {confidenceThreshold : F} {out : YoloRows F} {i : ℕ}

theorem decodeRow_of_readable (readable : RowReadable confidenceThreshold out i) :
    ∃ found, decodeRow frameSize confidenceThreshold out i = .ok found := by
  obtain ⟨fifth, rest⟩ := readable
  have read := Checked.get_of_lt fifth
  unfold decodeRow
  simp only [read]
  generalize objectness : out.data[i * out.cols + 4] = score at *
  cases low : below score confidenceThreshold with
  | true => exact ⟨none, by simp [bind, Except.bind, pure, Except.pure, low]⟩
  | false =>
    have given : out.data[i * out.cols + 4]? = some score := Checked.get_eq_ok.mp read
    obtain ⟨columns, whole⟩ := rest score given low
    rw [Nat.succ_mul] at whole
    have scores := Checked.segment_eq_ok.mpr
      ⟨by omega, (by omega : i * out.cols + 5 + (out.cols - 5) ≤ out.data.length), rfl⟩
    have x := Checked.get_of_lt (by omega : i * out.cols < out.data.length)
    have y := Checked.get_of_lt (by omega : i * out.cols + 1 < out.data.length)
    have width := Checked.get_of_lt (by omega : i * out.cols + 2 < out.data.length)
    have height := Checked.get_of_lt (by omega : i * out.cols + 3 < out.data.length)
    simp only [bind, Except.bind, pure, Except.pure, low, scores, x, y, width, height]
    generalize OpenCv.minMaxLoc ((out.data.drop (i * out.cols + 5)).take (out.cols - 5)) = best
    by_cases faint : below (times score best.1) confidenceThreshold = true
    · exact ⟨none, by simp [faint]⟩
    · simp only [faint, Bool.false_eq_true, if_false]
      split
      · exact ⟨_, rfl⟩
      · exact ⟨_, rfl⟩

theorem decodeRow_done {found : Option (YoloCandidate F)}
    (done : decodeRow frameSize confidenceThreshold out i = .ok found) :
    RowReadable confidenceThreshold out i ∧ ∀ candidate, found = some candidate →
      below candidate.confidence confidenceThreshold = false ∧ InFrame frameSize candidate.box ∧
        0 ≤ candidate.classId ∧ candidate.classId < (out.cols : ℤ) - 5 := by
  unfold decodeRow at done
  obtain ⟨objectness, read, done⟩ := Checked.bind_eq_ok.mp done
  have fifth := Checked.lt_of_get read
  have same := Checked.get_eq_ok.mp read
  cases low : below objectness confidenceThreshold with
  | true =>
    rw [if_pos low] at done
    obtain rfl := Except.ok.inj done
    refine ⟨⟨fifth, ?_⟩, fun candidate impossible => nomatch impossible⟩
    intro other there high
    obtain rfl := Option.some.inj (same.symm.trans there)
    rw [low] at high
    contradiction
  | false =>
    rw [if_neg (by simp [low])] at done
    obtain ⟨scores, searched, done⟩ := Checked.bind_eq_ok.mp done
    obtain ⟨columns, whole, -⟩ := Checked.segment_eq_ok.mp searched
    obtain ⟨size, some_⟩ := Checked.segment_length searched
    have inside := OpenCv.minMaxLoc_inside scores some_
    have readable : RowReadable confidenceThreshold out i := by
      refine ⟨fifth, fun _ _ _ => ⟨by omega, ?_⟩⟩
      rw [Nat.succ_mul]
      omega
    refine ⟨readable, ?_⟩
    rintro candidate rfl
    generalize OpenCv.minMaxLoc scores = best at done inside
    obtain ⟨classScore, classId⟩ := best
    simp only at done inside
    cases faint : below (times objectness classScore) confidenceThreshold with
    | true =>
      rw [if_pos faint] at done
      cases done
    | false =>
      rw [if_neg (by simp [faint])] at done
      obtain ⟨x, -, done⟩ := Checked.bind_eq_ok.mp done
      obtain ⟨y, -, done⟩ := Checked.bind_eq_ok.mp done
      obtain ⟨width, -, done⟩ := Checked.bind_eq_ok.mp done
      obtain ⟨height, -, done⟩ := Checked.bind_eq_ok.mp done
      cases area : (boxAt frameSize x y width height).empty with
      | true =>
        rw [if_pos area] at done
        cases done
      | false =>
        rw [if_neg (by simp [area])] at done
        obtain rfl := Option.some.inj (Except.ok.inj done)
        exact ⟨faint, boxAt_inFrame area, inside.1, by simp only; omega⟩

/-- The decoding ends without a read outside the tensors or a search for the best of no scores, and
every detection comes from a row, with enough confidence, a box in the frame and a class that the
row has a score for. -/
def Sound (outputs : List (YoloRows F)) (frameSize : Size) (classNames : List String)
    (confidenceThreshold nmsThreshold : F) : Prop :=
  ∃ detections,
    decodeDetections outputs frameSize classNames confidenceThreshold nmsThreshold =
      .ok detections ∧
    ∀ d ∈ detections, atLeast d.confidence confidenceThreshold = true ∧ InFrame frameSize d.box ∧
      ∃ out ∈ outputs, ∃ i < out.rows,
        decodeRow frameSize confidenceThreshold out i =
          .ok (some ⟨d.box, d.confidence, d.classId⟩) ∧
        0 ≤ d.classId ∧ d.classId < (out.cols : ℤ) - 5

variable {outputs : List (YoloRows F)} {classNames : List String} {nmsThreshold : F}

theorem rows_readable {found : List (List (Option (YoloCandidate F)))}
    (done : outputs.mapM (fun out => (List.range out.rows).mapM
      (decodeRow frameSize confidenceThreshold out)) = .ok found) :
    ∀ out ∈ outputs, Readable confidenceThreshold out := by
  intro out member i inside
  obtain ⟨rows, all⟩ := Checked.exists_mapM.mp ⟨found, done⟩ out member
  obtain ⟨row, turn⟩ := Checked.exists_mapM.mp ⟨rows, all⟩ i (List.mem_range.mpr inside)
  exact (decodeRow_done turn).1

variable (frameSize) in
theorem rows_decoded (readable : ∀ out ∈ outputs, Readable confidenceThreshold out) :
    ∃ found, outputs.mapM (fun out => (List.range out.rows).mapM
      (decodeRow frameSize confidenceThreshold out)) = .ok found := by
  apply Checked.exists_mapM.mpr
  intro out member
  apply Checked.exists_mapM.mpr
  intro i inside
  exact decodeRow_of_readable (readable out member i (List.mem_range.mp inside))

theorem candidate_row {found : List (List (Option (YoloCandidate F)))}
    (done : outputs.mapM (fun out => (List.range out.rows).mapM
      (decodeRow frameSize confidenceThreshold out)) = .ok found)
    {candidate : YoloCandidate F} (member : candidate ∈ found.flatten.reduceOption) :
    ∃ out ∈ outputs, ∃ i < out.rows,
      decodeRow frameSize confidenceThreshold out i = .ok (some candidate) := by
  have listed : some candidate ∈ found.flatten := List.reduceOption_mem_iff.mp member
  obtain ⟨rows, there, own⟩ := List.mem_flatten.mp listed
  obtain ⟨out, output, all⟩ := Checked.mem_mapM done there
  obtain ⟨i, inside, turn⟩ := Checked.mem_mapM all own
  exact ⟨out, output, i, List.mem_range.mp inside, turn⟩

theorem kept_candidate {candidates : List (YoloCandidate F)} {idx : ℤ}
    (kept : idx ∈ OpenCv.NMSBoxes (candidates.map YoloCandidate.box)
      (candidates.map YoloCandidate.confidence) confidenceThreshold nmsThreshold) :
    ∃ candidate ∈ candidates, candidateAt candidates idx = .ok candidate ∧
      isNaN candidate.confidence = false ∧ isNaN confidenceThreshold = false := by
  obtain ⟨positive, inside⟩ := OpenCv.NMSBoxes_valid _ _ _ _ idx kept
  rw [List.length_map] at inside
  obtain ⟨n, rfl⟩ := Int.eq_ofNat_of_zero_le positive
  have bound : n < candidates.length := by omega
  refine ⟨candidates[n], List.getElem_mem bound, ?_, ?_⟩
  · unfold candidateAt
    rw [if_pos positive, Int.toNat_natCast]
    exact Checked.get_of_lt bound
  · apply OpenCv.NMSBoxes_compared _ _ _ _ n candidates[n].confidence kept
    simp [List.getElem?_eq_getElem bound]

theorem sound_iff : Sound outputs frameSize classNames confidenceThreshold nmsThreshold ↔
    ∀ out ∈ outputs, Readable confidenceThreshold out := by
  constructor
  · rintro ⟨detections, done, -⟩
    unfold decodeDetections at done
    obtain ⟨found, rows, -⟩ := Checked.bind_eq_ok.mp done
    exact rows_readable rows
  · intro readable
    obtain ⟨found, rows⟩ := rows_decoded frameSize readable
    unfold Sound decodeDetections
    simp only [rows]
    let candidates := found.flatten.reduceOption
    let indices := OpenCv.NMSBoxes (candidates.map YoloCandidate.box)
      (candidates.map YoloCandidate.confidence) confidenceThreshold nmsThreshold
    have turns : ∀ idx ∈ indices, ∃ d, detectionAt classNames candidates idx = .ok d := by
      intro idx kept
      obtain ⟨candidate, -, read, -⟩ := kept_candidate kept
      exact ⟨_, Checked.bind_eq_ok.mpr ⟨candidate, read, rfl⟩⟩
    obtain ⟨detections, built⟩ := Checked.exists_mapM.mpr turns
    refine ⟨detections, built, ?_⟩
    intro d member
    obtain ⟨idx, kept, made⟩ := Checked.mem_mapM built member
    obtain ⟨candidate, listed, read, number, threshold⟩ := kept_candidate kept
    obtain ⟨same, again, made⟩ := Checked.bind_eq_ok.mp made
    obtain rfl := Except.ok.inj (read.symm.trans again)
    obtain rfl := Except.ok.inj made
    obtain ⟨out, output, i, inside, turn⟩ := candidate_row rows listed
    obtain ⟨enough, box, low, high⟩ := (decodeRow_done turn).2 candidate rfl
    exact ⟨compares _ _ number threshold enough, box, out, output, i, inside, turn, low, high⟩

end Rows

/-! ### Matrices on tensors -/

def FitsInt (n : ℤ) : Prop := -2 ^ 31 ≤ n ∧ n < 2 ^ 31

theorem product_exact {a b : ℤ} (left : FitsInt a) (right : FitsInt b) :
    Word.signed 64 (a * b) = a * b := by
  have bound : |a * b| ≤ 2 ^ 31 * 2 ^ 31 := by
    rw [abs_mul]
    obtain ⟨low, high⟩ := left
    obtain ⟨bottom, top⟩ := right
    exact mul_le_mul (abs_le.mpr (by omega)) (abs_le.mpr (by omega)) (abs_nonneg b) (by norm_num)
  obtain ⟨low, high⟩ := abs_le.mp bound
  exact Word.signed_of_fits (by omega) (by omega)

theorem long_exact {a : ℤ} (fits : FitsInt a) : Word.signed 64 a = a := by
  obtain ⟨low, high⟩ := fits
  exact Word.signed_of_fits (by omega) (by omega)

theorem matrixOn_exact {data : List F} {rows cols : ℤ} {out : YoloRows F}
    (laid : matrixOn data rows cols = some out) (row : FitsInt rows) (col : FitsInt cols)
    (size : (data.length : ℤ) = rows * cols) :
    0 < out.rows ∧ out.rows * out.cols = out.data.length := by
  obtain ⟨low, high⟩ := row
  obtain ⟨left, right⟩ := col
  have rows_ : Word.signed 32 rows = rows := Word.signed_of_fits (by omega) (by omega)
  have cols_ : Word.signed 32 cols = cols := Word.signed_of_fits (by omega) (by omega)
  unfold matrixOn at laid
  simp only [rows_, cols_] at laid
  split at laid
  · contradiction
  · obtain rfl := Option.some.inj laid
    obtain ⟨r, rfl⟩ := Int.eq_ofNat_of_zero_le (by omega : 0 ≤ rows)
    obtain ⟨c, rfl⟩ := Int.eq_ofNat_of_zero_le (by omega : 0 ≤ cols)
    simp only [Int.toNat_natCast]
    refine ⟨by omega, ?_⟩
    have whole : ((r * c : ℕ) : ℤ) = data.length := by
      rw [size]
      exact Int.natCast_mul r c
    omega

/-- Dimensions that `int` can hold give a matrix that covers the data exactly. -/
theorem asYoloRows_exact {tensor : TensorView F} {out : YoloRows F}
    (accepted : asYoloRows tensor = some out) (small : ∀ dim ∈ tensor.shape, FitsInt dim) :
    0 < out.rows ∧ out.rows * out.cols = out.data.length := by
  have one : FitsInt 1 := by
    constructor <;> decide
  unfold asYoloRows at accepted
  simp only at accepted
  split at accepted
  · contradiction
  · rename_i passed
    obtain ⟨-, size⟩ := not_or.mp passed
    have length := not_not.mp size
    generalize tensor.shape = shape at accepted small length
    split at accepted
    · rename_i rows cols
      have row : FitsInt rows := small rows (by simp)
      have col : FitsInt cols := small cols (by simp)
      simp only [expectedSize, List.foldl_cons, List.foldl_nil, Int.one_mul, long_exact row,
        product_exact row col] at length
      exact matrixOn_exact accepted row col length
    · rename_i batch rows cols
      have row : FitsInt rows := small rows (by simp)
      have col : FitsInt cols := small cols (by simp)
      split at accepted
      · rename_i single
        subst single
        simp only [expectedSize, List.foldl_cons, List.foldl_nil, Int.one_mul, long_exact one,
          long_exact row, product_exact row col] at length
        exact matrixOn_exact accepted row col length
      · contradiction
    · contradiction

section Columns

open SingleFloat

variable [SingleFloat F] {confidenceThreshold : F} {out : YoloRows F}

/-- A matrix that covers its data is read safely when its rows go on after the fifth column, or end
with it and are all passed over. -/
theorem readable_columns (rows : 0 < out.rows) (covers : out.rows * out.cols = out.data.length) :
    Readable confidenceThreshold out ↔ 5 < out.cols ∨ out.cols = 5 ∧
      ∀ i < out.rows, ∀ objectness, out.data[i * 5 + 4]? = some objectness →
        below objectness confidenceThreshold = true := by
  constructor
  · intro readable
    obtain ⟨last, same⟩ := Nat.exists_eq_succ_of_ne_zero (Nat.ne_of_gt rows)
    have fifth := (readable last (by omega)).1
    rw [← covers, same, Nat.succ_mul] at fifth
    by_cases more : 5 < out.cols
    · exact Or.inl more
    · have five : out.cols = 5 := by omega
      refine Or.inr ⟨five, ?_⟩
      intro i inside objectness there
      by_contra high
      have further := (readable i inside).2 objectness (by rwa [five]) (by simpa using high)
      omega
  · intro columns i inside
    have whole : (i + 1) * out.cols ≤ out.data.length := by
      rw [← covers]
      exact Nat.mul_le_mul_right out.cols inside
    have start : (i + 1) * out.cols = i * out.cols + out.cols := Nat.succ_mul i out.cols
    rcases columns with more | ⟨five, low⟩
    · exact ⟨by omega, fun _ _ _ => ⟨more, whole⟩⟩
    · refine ⟨by omega, ?_⟩
      intro objectness there high
      rw [five] at there
      rw [low i inside objectness there] at high
      contradiction

end Columns

section Detect

open SingleFloat

variable [SingleFloat F] [OpenCv F]

/-- Whether the decoding of accepted tensors is sound is decided by the reads alone; with dimensions
that `int` can hold, by the number of columns. -/
theorem decoding_sound (inferred : InferResult F) (frameSize : Size) (classNames : List String)
    (confidenceThreshold nmsThreshold : F) :
    (∀ outputs, inferred.outputs.mapM asYoloRows = some outputs →
      (Sound outputs frameSize classNames confidenceThreshold nmsThreshold ↔
        ∀ out ∈ outputs, Readable confidenceThreshold out)) ∧
    ∀ tensor ∈ inferred.outputs, ∀ out, asYoloRows tensor = some out →
      (∀ dim ∈ tensor.shape, FitsInt dim) →
      (Readable confidenceThreshold out ↔ 5 < out.cols ∨ out.cols = 5 ∧
        ∀ i < out.rows, ∀ objectness, out.data[i * 5 + 4]? = some objectness →
          below objectness confidenceThreshold = true) := by
  constructor
  · intro outputs _
    exact sound_iff
  · intro tensor _ out accepted small
    obtain ⟨rows, covers⟩ := asYoloRows_exact accepted small
    exact readable_columns rows covers

end Detect

/-! ### Runs on given tensors -/

/-- Exact numbers, with one value that is not a number. -/
local instance exactFloat : SingleFloat (Option ℚ) where
  isNaN x := x.isNone
  below
    | some a, some b => decide (a < b)
    | _, _ => false
  atLeast
    | some a, some b => decide (b ≤ a)
    | _, _ => false
  times
    | some a, some b => some (a * b)
    | _, _ => none
  scaled x n := x.map (fun a => a * n)
  toInt
    | some a => a.num.tdiv a.den
    | none => -2 ^ 31
  compares a b left right apart := by
    cases a with
    | none => contradiction
    | some a =>
      cases b with
      | none => contradiction
      | some b => simpa using apart

/-- The first place of the largest number. -/
def firstMax : List (Option ℚ) → ℕ
  | [] => 0
  | x :: xs =>
    match xs[firstMax xs]? with
    | none => 0
    | some best => if SingleFloat.below x best then firstMax xs + 1 else 0

theorem firstMax_lt {row : List (Option ℚ)} (some_ : row ≠ []) : firstMax row < row.length := by
  cases row with
  | nil => contradiction
  | cons x xs =>
    unfold firstMax
    split
    · exact Nat.succ_pos _
    · rename_i best there
      have inside := (List.getElem?_eq_some_iff.mp there).1
      split
      · exact Nat.succ_lt_succ inside
      · exact Nat.succ_pos _

/-- Enough of OpenCV for a single box, which nothing suppresses. -/
local instance singleBox : OpenCv (Option ℚ) where
  minMaxLoc row := ((row[firstMax row]?).getD (some 0), firstMax row)
  NMSBoxes boxes scores score _ := ((List.range boxes.length).filter
    (fun i => (scores[i]?).any (fun x => SingleFloat.below score x))).map Int.ofNat
  minMaxLoc_inside row some_ := ⟨Int.natCast_nonneg _, Int.ofNat_lt.mpr (firstMax_lt some_)⟩
  NMSBoxes_valid boxes scores score _ idx kept := by
    obtain ⟨n, member, rfl⟩ := List.mem_map.mp kept
    have inside := List.mem_range.mp (List.mem_of_mem_filter member)
    exact ⟨Int.natCast_nonneg n, Int.ofNat_lt.mpr inside⟩
  NMSBoxes_compared boxes scores score _ idx x kept there := by
    obtain ⟨n, member, same⟩ := List.mem_map.mp kept
    obtain rfl : n = idx := Int.ofNat.inj same
    have higher := (List.mem_filter.mp member).2
    rw [there] at higher
    cases x with
    | none => cases score <;> contradiction
    | some x =>
      cases score with
      | none => contradiction
      | some score => exact ⟨rfl, rfl⟩

/-- A row in the middle of the frame, with two class scores. -/
def oneRow : TensorView (Option ℚ) where
  data := [some (1 / 2), some (1 / 2), some (1 / 5), some (1 / 5), some 1, some (1 / 2), some (3 / 4)]
  shape := [1, 7]

theorem oneRow_sound :
    Sound [⟨1, 7, oneRow.data⟩] ⟨100, 100⟩ ["person"] (some (1 / 4)) (some (9 / 20)) := by
  obtain ⟨exact_, columns⟩ := decoding_sound { ok := true, outputs := [oneRow] } ⟨100, 100⟩
    ["person"] (some (1 / 4)) (some (9 / 20))
  have accepted : asYoloRows oneRow = some ⟨1, 7, oneRow.data⟩ := by decide +kernel
  apply (exact_ [⟨1, 7, oneRow.data⟩] (by simp [accepted])).mpr
  intro out member
  obtain rfl := List.mem_singleton.mp member
  apply (columns oneRow List.mem_cons_self _ accepted ?_).mpr
  · exact Or.inl (by decide)
  · intro dim listed
    have range : dim = 1 ∨ dim = 7 := by simpa [oneRow] using listed
    rcases range with rfl | rfl <;> constructor <;> decide

/-- Rows that end before the objectness, and rows that end with it. -/
def fourColumns : TensorView (Option ℚ) where
  data := [some 1, some 1, some 1, some 1]
  shape := [1, 4]

def fiveColumns : TensorView (Option ℚ) where
  data := [some 1, some 1, some 1, some 1, some 1]
  shape := [1, 5]

theorem short_rows_unsound :
    asYoloRows fourColumns = some ⟨1, 4, fourColumns.data⟩ ∧
      ¬Sound [⟨1, 4, fourColumns.data⟩] ⟨100, 100⟩ [] (some (1 / 4)) (some (9 / 20)) ∧
    asYoloRows fiveColumns = some ⟨1, 5, fiveColumns.data⟩ ∧
      ¬Sound [⟨1, 5, fiveColumns.data⟩] ⟨100, 100⟩ [] (some (1 / 4)) (some (9 / 20)) := by
  refine ⟨by decide +kernel, ?_, by decide +kernel, ?_⟩
  · intro sound
    have readable := sound_iff.mp sound _ List.mem_cons_self 0 Nat.one_pos
    exact absurd readable.1 (by decide)
  · intro sound
    have readable := sound_iff.mp sound _ List.mem_cons_self 0 Nat.one_pos
    exact absurd (readable.2 (some 1) rfl (by decide +kernel)).1 (by decide)

end Yolo

namespace YoloDetector

variable {F : Type} [SingleFloat F] [OpenCv F]

theorem detect_sound (d : YoloDetector F) (image : Mat)
    (readable : ∀ engine, d.m_engine = some engine → ∀ outputs,
      (engine.infer image).outputs.mapM Yolo.asYoloRows = some outputs →
        ∀ out ∈ outputs, Yolo.Readable d.confidenceThreshold out) :
    ∃ detections, d.detect image = .ok detections ∧
      ∀ x ∈ detections, Yolo.InFrame ⟨image.cols, image.rows⟩ x.box := by
  have nothing : ∃ detections, (.ok [] : Except Checked.Fault (List (FloatDetection F))) =
      .ok detections ∧ ∀ x ∈ detections, Yolo.InFrame ⟨image.cols, image.rows⟩ x.box :=
    ⟨[], rfl, fun _ member => absurd member List.not_mem_nil⟩
  unfold detect
  split
  · exact nothing
  · rename_i engine there
    split
    · exact nothing
    · split
      · exact nothing
      · simp only
        split
        · exact nothing
        · split
          · exact nothing
          · rename_i outputs accepted
            obtain ⟨detections, done, each⟩ :=
              Yolo.sound_iff.mpr (readable engine there outputs accepted)
            exact ⟨detections, done, fun x member => (each x member).2.1⟩

end YoloDetector

end VisionLab
