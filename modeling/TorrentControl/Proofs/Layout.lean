import Mathlib.Algebra.BigOperators.Intervals
import Mathlib.Algebra.Order.Ring.Int
import Mathlib.Data.Set.Card
import Mathlib.Order.Bounds.Basic
import Mathlib.Order.Interval.Finset.Nat
import TorrentControl.Session.File

/-! # The layout of files in chunks

A sum of words that are not negative is the true sum, or the greatest word where that is too great. So
where the true size of a payload is a word, files lie in it one behind the other without gaps. The two
ways to divide by the chunk size round to either side: what lies before an offset takes as many chunks
as the one says, and as many whole ones are before it as the other says. From both follows which chunks
a file touches, and how many all files touch. -/

namespace TorrentControl

/-- The file has a byte. -/
def File.isFilled (file : File) : Bool :=
  0 < file.size.toInt

namespace FileList

open Number.Word (clamp toInt_clamp least greatest)

/-! ## Sums -/

/-- The sum of words as integers, however great it is. -/
def trueSum (words : List Int64) : Int :=
  (words.map Int64.toInt).sum

@[simp] theorem trueSum_nil : trueSum [] = 0 := rfl

@[simp] theorem trueSum_cons (w : Int64) (words : List Int64) :
    trueSum (w :: words) = w.toInt + trueSum words :=
  List.sum_cons

theorem trueSum_append (words others : List Int64) :
    trueSum (words ++ others) = trueSum words + trueSum others := by
  simp only [trueSum, List.map_append, List.sum_append]

theorem trueSum_nonneg {words : List Int64} (h : ∀ w ∈ words, 0 ≤ w.toInt) : 0 ≤ trueSum words := by
  induction words with
  | nil => exact Int.le_refl 0
  | cons w words ih =>
    have hfirst := h w List.mem_cons_self
    have hrest := ih fun w hw => h w (List.mem_cons_of_mem _ hw)
    rw [trueSum_cons]
    omega

/-- **A sum of words that are not negative is cut off at the greatest word.** -/
theorem toInt_saturatingSum {words : List Int64} (h : ∀ w ∈ words, 0 ≤ w.toInt) :
    (saturatingSum words).toInt = min (trueSum words) greatest := by
  have hfold : ∀ sum : Int64, 0 ≤ sum.toInt →
      (words.foldl (fun sum w => clamp (sum.toInt + w.toInt)) sum).toInt =
        min (sum.toInt + trueSum words) greatest := by
    induction words with
    | nil =>
      intro sum _
      have hle := sum.toInt_lt
      simp only [List.foldl_nil, trueSum_nil, greatest]
      omega
    | cons w words ih =>
      intro sum hsum
      have hfirst := h w List.mem_cons_self
      have hrest : ∀ w ∈ words, 0 ≤ w.toInt := fun w hw => h w (List.mem_cons_of_mem _ hw)
      have hpositive := trueSum_nonneg hrest
      have hclamp := toInt_clamp (sum.toInt + w.toInt)
      rw [List.foldl_cons, ih hrest _ (by rw [hclamp, greatest]; omega), hclamp, trueSum_cons]
      unfold least greatest
      omega
  have hzero := hfold 0 (by decide)
  rwa [Int64.toInt_zero, Int.zero_add] at hzero

/-! ## Chunks before an offset -/

variable (list : FileList)

theorem chunk_pos : 0 < list.chunk := by
  unfold chunk
  omega

/-- The chunks that it takes to cover everything before an offset: one fewer ends before it. -/
theorem chunkCeil_bounds (offset : Int) : (list.chunkCeil offset - 1) * list.chunk < offset ∧
    offset ≤ list.chunkCeil offset * list.chunk := by
  have hdivide := Int.tmod_add_tdiv_mul offset list.chunk
  have hbelow := Int.tmod_lt_of_pos offset list.chunk_pos
  have habove := Int.lt_tmod_of_pos offset list.chunk_pos
  unfold chunkCeil chunkFloor
  split
  · rw [Int.add_sub_cancel, Int.add_mul, Int.one_mul]
    omega
  · rw [Int.sub_mul, Int.one_mul]
    omega

/-- So many chunks cover everything before the offset, and no fewer do. -/
theorem chunkCeil_le_iff (offset n : Int) : list.chunkCeil offset ≤ n ↔ offset ≤ n * list.chunk := by
  obtain ⟨hbefore, hcovered⟩ := list.chunkCeil_bounds offset
  constructor
  · intro hle
    exact hcovered.trans (Int.mul_le_mul_of_nonneg_right hle list.chunk_pos.le)
  · intro hle
    have hlt := Int.lt_of_mul_lt_mul_right (hbefore.trans_le hle) list.chunk_pos.le
    omega

/-- So many chunks lie before the offset, and no more do. -/
theorem le_chunkFloor_iff {offset : Int} (h : 0 ≤ offset) (n : Int) :
    n ≤ list.chunkFloor offset ↔ n * list.chunk ≤ offset := by
  rw [chunkFloor, Int.tdiv_eq_ediv_of_nonneg h]
  exact Int.le_ediv_iff_mul_le list.chunk_pos

theorem chunkCeil_mono {offset later : Int} (h : offset ≤ later) :
    list.chunkCeil offset ≤ list.chunkCeil later :=
  (list.chunkCeil_le_iff ..).2 (h.trans ((list.chunkCeil_le_iff ..).1 (Int.le_refl _)))

theorem chunkFloor_nonneg {offset : Int} (h : 0 ≤ offset) : 0 ≤ list.chunkFloor offset :=
  (list.le_chunkFloor_iff h 0).2 (by rwa [Int.zero_mul])

theorem chunkFloor_le_chunkCeil {offset : Int} (h : 0 ≤ offset) :
    list.chunkFloor offset ≤ list.chunkCeil offset := by
  have hbefore := (list.le_chunkFloor_iff h _).1 (Int.le_refl _)
  have hcovered := (list.chunkCeil_le_iff offset _).1 (Int.le_refl _)
  exact le_of_mul_le_mul_right (hbefore.trans hcovered) list.chunk_pos

theorem chunkCeil_le_chunkFloor_add_one (offset : Int) :
    list.chunkCeil offset ≤ list.chunkFloor offset + 1 := by
  unfold chunkCeil
  split <;> omega

/-- Fewer chunks than bytes. -/
theorem chunkCeil_le {offset : Int} (h : 0 ≤ offset) : list.chunkCeil offset ≤ offset :=
  (list.chunkCeil_le_iff ..).2 (le_mul_of_one_le_right h list.chunk_pos)

theorem toInt_sizeInChunks_of_nonneg (h : 0 ≤ list.size.toInt) :
    list.sizeInChunks.toInt = list.chunkCeil list.size.toInt := by
  have hlow := list.chunkFloor_nonneg h
  have hmid := list.chunkFloor_le_chunkCeil h
  have hhigh := list.chunkCeil_le h
  have hword := list.size.toInt_lt
  rw [sizeInChunks, toInt_clamp]
  unfold least greatest
  omega

/-! ## Where files lie -/

/-- The size of the file at an index, 0 if there is none. -/
def sizeAt (index : Nat) : Int :=
  (list.files[index]?.map fun file => file.size.toInt).getD 0

/-- The bytes of the payload that the file at an index is. -/
def bytes (index : Nat) : Set Int :=
  {byte | (list.offset index).toInt ≤ byte ∧ byte < (list.offset index).toInt + list.sizeAt index}

/-- The bytes of the chunk with a number, whether the payload has them or not. -/
def chunkBytes (k : Nat) : Set Int :=
  {byte | k * list.chunk ≤ byte ∧ byte < (k + 1) * list.chunk}

/-- The numbers of the chunks that have a byte of the file. -/
def touched (index : Nat) : Set Nat :=
  {k | (list.chunkBytes k ∩ list.bytes index).Nonempty}

/-- A chunk and a file that has a byte meet where the later of the two starts. -/
theorem mem_touched_iff {index k : Nat} : k ∈ list.touched index ↔ 0 < list.sizeAt index ∧
    k * list.chunk < (list.offset index).toInt + list.sizeAt index ∧
    (list.offset index).toInt < (k + 1) * list.chunk := by
  constructor
  · rintro ⟨byte, ⟨hfrom, hto⟩, hstart, hstop⟩
    exact ⟨by omega, hfrom.trans_lt hstop, hstart.trans_lt hto⟩
  · rintro ⟨hsize, hstop, hstart⟩
    have hnext : (k + 1) * list.chunk = k * list.chunk + list.chunk := add_one_mul ..
    have hpos := list.chunk_pos
    exact ⟨max (k * list.chunk) (list.offset index).toInt,
      ⟨le_max_left .., max_lt (by omega) hstart⟩, le_max_right .., max_lt hstop (by omega)⟩

theorem offset_length : list.offset list.files.length = list.size := by
  rw [offset, List.take_length, size]

/-- No file has a negative size, and their sizes add up to a word. -/
structure Measured : Prop where
  nonneg : ∀ file ∈ list.files, 0 ≤ file.size.toInt
  fits : trueSum (list.files.map File.size) ≤ greatest

variable {list}

theorem sum_take_le {files : List File} (h : ∀ file ∈ files, 0 ≤ file.size.toInt) (index : Nat) :
    trueSum ((files.take index).map File.size) ≤ trueSum (files.map File.size) := by
  have hrest : 0 ≤ trueSum ((files.drop index).map File.size) :=
    trueSum_nonneg (List.forall_mem_map.2 fun file hfile => h file (List.mem_of_mem_drop hfile))
  conv_rhs => rw [← List.take_append_drop index files, List.map_append, trueSum_append]
  omega

namespace Measured

variable (h : list.Measured)

include h

/-- The file at an index starts where the files before it end. -/
theorem toInt_offset (index : Nat) :
    (list.offset index).toInt = trueSum ((list.files.take index).map File.size) := by
  have hfits := (sum_take_le h.nonneg index).trans h.fits
  rw [offset, toInt_saturatingSum, min_eq_left hfits]
  exact List.forall_mem_map.2 fun file hfile => h.nonneg file (List.mem_of_mem_take hfile)

theorem offset_nonneg (index : Nat) : 0 ≤ (list.offset index).toInt := by
  rw [h.toInt_offset]
  exact trueSum_nonneg
    (List.forall_mem_map.2 fun file hfile => h.nonneg file (List.mem_of_mem_take hfile))

theorem toInt_offset_succ (index : Nat) :
    (list.offset (index + 1)).toInt = (list.offset index).toInt + list.sizeAt index := by
  rw [h.toInt_offset, h.toInt_offset, List.take_add_one, List.map_append, trueSum_append, sizeAt]
  cases list.files[index]? <;> simp

theorem sizeAt_nonneg (index : Nat) : 0 ≤ list.sizeAt index := by
  unfold sizeAt
  cases hfile : list.files[index]? with
  | none => exact Int.le_refl 0
  | some file => exact h.nonneg file (List.mem_of_getElem? hfile)

theorem offset_le_succ (index : Nat) :
    (list.offset index).toInt ≤ (list.offset (index + 1)).toInt := by
  have hsize := h.sizeAt_nonneg index
  have hstop := h.toInt_offset_succ index
  omega

/-! ## Which chunks a file touches -/

theorem toInt_sizeInChunks : list.sizeInChunks.toInt = list.chunkCeil list.size.toInt := by
  apply list.toInt_sizeInChunks_of_nonneg
  rw [← offset_length]
  exact h.offset_nonneg _

/-- A file that is not empty is in the chunks from the one that its first byte is in to the one that
its last byte is in. -/
theorem toInt_fileChunks (index : Nat) : (list.fileChunks index).toInt =
    if list.sizeAt index = 0 then 0
    else
      list.chunkCeil (list.offset (index + 1)).toInt - list.chunkFloor (list.offset index).toInt := by
  have hstart := h.offset_nonneg index
  have hsize := h.sizeAt_nonneg index
  have hstop := h.toInt_offset_succ index
  unfold fileChunks sizeAt at *
  cases hfile : list.files[index]? with
  | none => rfl
  | some file =>
    rw [hfile] at hsize hstop
    simp only [Option.map_some, Option.getD_some] at hsize hstop ⊢
    by_cases hempty : file.size.toInt = 0
    · rw [if_pos hempty, if_pos hempty.le]
      rfl
    have hword := (list.offset (index + 1)).toInt_lt
    have hexact : (clamp ((list.offset index).toInt + file.size.toInt)).toInt =
        (list.offset (index + 1)).toInt := by
      rw [toInt_clamp]
      unfold least greatest
      omega
    have hlow := list.chunkFloor_nonneg hstart
    have hmid := (list.chunkFloor_le_chunkCeil hstart).trans
      (list.chunkCeil_mono (h.offset_le_succ index))
    have hhigh := list.chunkCeil_le (h.offset_nonneg (index + 1))
    rw [if_neg hempty, if_neg (by omega), hexact, toInt_clamp]
    unfold least greatest
    omega

/-- The chunks that a file touches are those with the numbers in between. -/
theorem touched_eq (index : Nat) : list.touched index =
    if list.sizeAt index = 0 then ∅
    else Set.Ico (list.chunkFloor (list.offset index).toInt).toNat
      (list.chunkCeil (list.offset (index + 1)).toInt).toNat := by
  have hsize := h.sizeAt_nonneg index
  ext k
  have hfirst := list.le_chunkFloor_iff (h.offset_nonneg index) (k + 1)
  have hlast := list.chunkCeil_le_iff (list.offset (index + 1)).toInt k
  rw [mem_touched_iff, ← h.toInt_offset_succ]
  split
  · simp only [Set.mem_empty_iff_false, iff_false]
    omega
  · rw [Set.mem_Ico]
    omega

theorem finite_touched (index : Nat) : (list.touched index).Finite := by
  rw [h.touched_eq]
  split
  · exact Set.finite_empty
  · exact Set.finite_Ico _ _

theorem ncard_touched (index : Nat) :
    ((list.touched index).ncard : Int) = (list.fileChunks index).toInt := by
  rw [h.touched_eq, h.toInt_fileChunks]
  split
  · rw [Set.ncard_empty]
    rfl
  · have hstart := h.offset_nonneg index
    have hlow := list.chunkFloor_nonneg hstart
    have hmid := (list.chunkFloor_le_chunkCeil hstart).trans
      (list.chunkCeil_mono (h.offset_le_succ index))
    rw [Set.ncard_eq_toFinset_card', Set.toFinset_Ico, Nat.card_Ico]
    omega

/-! ## How many chunks all files touch -/

/-- Along the list of files: as long as no file had a byte, no chunk is counted. Then the count is at
least the number of chunks so far, and each further file that has a byte adds at most one to the
difference, namely the chunk that it shares with the bytes before it. -/
theorem counted_bounds (index : Nat) :
    let counted := ∑ i ∈ Finset.range index, (list.fileChunks i).toInt
    let filled : Int := (list.files.take index).countP File.isFilled
    let chunks := list.chunkCeil (list.offset index).toInt
    (filled = 0 ∧ (list.offset index).toInt = 0 ∧ counted = 0) ∨
      (0 < filled ∧ chunks ≤ counted ∧ counted ≤ chunks + filled - 1) := by
  induction index with
  | zero => exact .inl ⟨rfl, rfl, rfl⟩
  | succ index ih =>
    have hfilled : ((list.files.take (index + 1)).countP File.isFilled : Int) =
        (list.files.take index).countP File.isFilled + if list.sizeAt index = 0 then 0 else 1 := by
      have hsize := h.sizeAt_nonneg index
      rw [List.take_add_one, List.countP_append, Nat.cast_add]
      unfold sizeAt at *
      cases hfile : list.files[index]? with
      | none => rfl
      | some file =>
        rw [hfile] at hsize
        simp only [Option.map_some, Option.getD_some] at hsize ⊢
        by_cases hempty : file.size.toInt = 0
        · simp [File.isFilled, hempty]
        · simp [File.isFilled, hempty, show 0 < file.size.toInt by omega]
    simp only at ih ⊢
    rw [hfilled, Finset.sum_range_succ, h.toInt_fileChunks]
    by_cases hempty : list.sizeAt index = 0
    · rw [if_pos hempty, if_pos hempty, h.toInt_offset_succ, hempty]
      simpa only [add_zero] using ih
    · rw [if_neg hempty, if_neg hempty]
      -- the chunk of the last byte so far may be counted a second time, and no other one
      have hlow := list.chunkFloor_le_chunkCeil (h.offset_nonneg index)
      have hhigh := list.chunkCeil_le_chunkFloor_add_one (list.offset index).toInt
      right
      rcases ih with ⟨hnone, hzero, hcount⟩ | ⟨hsome, hle, hge⟩
      · have hfloor : list.chunkFloor (list.offset index).toInt = 0 := by
          rw [hzero, chunkFloor, Int.zero_tdiv]
        omega
      · omega

end Measured

/-- **Files lie in the payload without gaps, and chunks are counted exactly.** Where no file has a
negative size and their sizes add up to a word: each file starts where the one before it ends, and the
last one ends where the payload does. What is counted for a file is the number of chunks that have a
byte of it, which is none for an empty or an absent file. The payload is counted with the least number
of chunks that cover it. All files together count at least as many, and for each file that has a byte,
but for the first one, at most one more. -/
theorem chunks_are_counted (h : list.Measured) :
    (list.offset 0 = 0 ∧ ∀ index,
      (list.offset (index + 1)).toInt = (list.offset index).toInt + list.sizeAt index) ∧
    list.offset list.files.length = list.size ∧
    (∀ index, (list.touched index).Finite ∧
      ((list.touched index).ncard : Int) = (list.fileChunks index).toInt) ∧
    (∀ index, list.sizeAt index = 0 → list.fileChunks index = 0) ∧
    IsLeast {n : Int | list.size.toInt ≤ n * list.chunk} list.sizeInChunks.toInt ∧
    ((∃ file ∈ list.files, 0 < file.size.toInt) →
      list.sizeInChunks.toInt ≤
        ∑ index ∈ Finset.range list.files.length, (list.fileChunks index).toInt ∧
      ∑ index ∈ Finset.range list.files.length, (list.fileChunks index).toInt ≤
        list.sizeInChunks.toInt + list.files.countP File.isFilled - 1) := by
  have hempty (index : Nat) (hsize : list.sizeAt index = 0) : list.fileChunks index = 0 := by
    apply Int64.toInt_inj.1
    rw [h.toInt_fileChunks, if_pos hsize]
    rfl
  have hleast : IsLeast {n : Int | list.size.toInt ≤ n * list.chunk} list.sizeInChunks.toInt := by
    rw [h.toInt_sizeInChunks]
    exact ⟨(list.chunkCeil_le_iff ..).1 (Int.le_refl _), fun n hn => (list.chunkCeil_le_iff ..).2 hn⟩
  refine ⟨⟨rfl, h.toInt_offset_succ⟩, list.offset_length,
    fun index => ⟨h.finite_touched index, h.ncard_touched index⟩, hempty, hleast, ?_⟩
  rintro ⟨file, hfile, hsize⟩
  have hfilled : 0 < list.files.countP File.isFilled :=
    List.countP_pos_iff.2 ⟨file, hfile, decide_eq_true hsize⟩
  have hbounds := h.counted_bounds list.files.length
  rw [offset_length, List.take_length, ← h.toInt_sizeInChunks] at hbounds
  rcases hbounds with ⟨hnone, -⟩ | ⟨-, hbounds⟩
  · omega
  · exact hbounds

/-- Three files of which the second one is empty, and whose sizes add up to the greatest word. -/
def brimful : FileList :=
  { empty with
    chunkSize := 10
    files := [.ofPath "a" 9223372036854775795, .ofPath "b" 0, .ofPath "c" 12] }

/-- The last chunk of the first file is the first one of the third file, and is counted twice. -/
theorem brimful_counted : brimful.Measured ∧ brimful.size = Int64.maxValue ∧
    (brimful.touched 0).ncard = 922337203685477580 ∧ (brimful.touched 1).ncard = 0 ∧
    (brimful.touched 2).ncard = 2 ∧
    IsLeast {n : Int | brimful.size.toInt ≤ n * 10} 922337203685477581 ∧
    ∑ index ∈ Finset.range 3, (brimful.fileChunks index).toInt ≤ 922337203685477581 + 2 - 1 := by
  have hmeasured : brimful.Measured := ⟨by decide, by decide⟩
  obtain ⟨-, -, hcounted, -, hleast, hall⟩ := chunks_are_counted hmeasured
  have hnumber (index n : Nat) (hn : (brimful.fileChunks index).toInt = n) :
      (brimful.touched index).ncard = n :=
    Int.ofNat.inj ((hcounted index).2.trans hn)
  have hsize : brimful.sizeInChunks.toInt = 922337203685477581 := by decide
  rw [hsize] at hleast hall
  exact ⟨hmeasured, by decide, hnumber 0 _ (by decide), hnumber 1 _ (by decide),
    hnumber 2 _ (by decide), hleast, (hall ⟨_, List.mem_cons_self, by decide⟩).2⟩

end FileList

end TorrentControl
