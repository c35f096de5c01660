import Mathlib.Algebra.Order.Ring.Int
import TorrentControl.Proofs.Settings

/-! # Where the upload ratio is exact

The uploaded bytes are counted in thousandths before they are divided by the bytes that are done. What
is too great for a word is cut off before the division, and the quotient is that of what is left. It is
the quotient of the whole only if no multiple of the divisor was cut off. -/

namespace TorrentControl

open Number.Word (clamp toInt_clamp least greatest)

/-! ## Quotients of words -/

namespace Number.Word

/-- The integer is that of a word. -/
def InRange (n : Int) : Prop :=
  least ≤ n ∧ n ≤ greatest

theorem inRange_toInt (w : Int64) : InRange w.toInt :=
  ⟨w.le_toInt, Int.le_of_lt_add_one w.toInt_lt⟩

theorem toInt_clamp_of_inRange {n : Int} (h : InRange n) : (clamp n).toInt = n := by
  obtain ⟨hlow, hhigh⟩ := h
  rw [toInt_clamp]
  omega

variable {n m b : Int}

/-- Division by a positive number does not lead out of the range. -/
theorem InRange.tdiv (h : InRange n) (hb : 0 < b) : InRange (n.tdiv b) := by
  obtain ⟨hlow, hhigh⟩ := h
  unfold InRange least greatest at *
  rcases Int.le_total 0 n with hn | hn
  · have hnonneg := Int.tdiv_nonneg hn hb.le
    have hle := Int.tdiv_le_self b hn
    omega
  · have hnonneg := Int.tdiv_nonneg (Int.neg_nonneg_of_nonpos hn) hb.le
    have hle := Int.tdiv_le_self b (Int.neg_nonneg_of_nonpos hn)
    rw [Int.neg_tdiv] at hnonneg hle
    omega

/-- Cutting a dividend off at a bound leaves the quotient if its multiple is not beyond the bound. -/
theorem min_ediv_eq_iff (hb : 0 < b) : min n m / b = n / b ↔ n / b * b ≤ m := by
  have hle : min n m / b ≤ n / b := Int.ediv_le_ediv hb (Int.min_le_left ..)
  have hmul : n / b * b ≤ n := Int.ediv_mul_le n hb.ne'
  have hquotient : n / b ≤ min n m / b ↔ n / b * b ≤ min n m := Int.le_ediv_iff_mul_le hb
  omega

/-- **Of a dividend that is cut off to a word the quotient is left, if its multiple is a word.** -/
theorem tdiv_clamp_eq_iff (hb : 0 < b) :
    (clamp n).toInt.tdiv b = n.tdiv b ↔ InRange (n.tdiv b * b) := by
  rcases Int.le_total 0 n with hn | hn
  · have hcut : (clamp n).toInt = min n greatest := by
      rw [toInt_clamp]
      unfold least greatest
      omega
    have hnonneg : 0 ≤ n / b * b := Int.mul_nonneg (Int.ediv_nonneg hn hb.le) hb.le
    rw [hcut, Int.tdiv_eq_ediv_of_nonneg hn, Int.tdiv_eq_ediv_of_nonneg, min_ediv_eq_iff hb]
    · unfold InRange least
      omega
    · unfold greatest
      omega
  · -- rounding is toward zero, so the quotient is the opposite of that of the opposite number
    obtain ⟨m, rfl⟩ : ∃ m, n = -m := ⟨-n, (Int.neg_neg n).symm⟩
    have hm : 0 ≤ m := Int.nonneg_of_neg_nonpos hn
    have hcut : (clamp (-m)).toInt = -min m (-least) := by
      rw [toInt_clamp]
      unfold least greatest
      omega
    have hnonneg : 0 ≤ m / b * b := Int.mul_nonneg (Int.ediv_nonneg hm hb.le) hb.le
    rw [hcut, Int.neg_tdiv, Int.neg_tdiv, Int.neg_inj, Int.tdiv_eq_ediv_of_nonneg hm,
      Int.tdiv_eq_ediv_of_nonneg, min_ediv_eq_iff hb, Int.neg_mul]
    · unfold InRange greatest least
      omega
    · unfold least
      omega

end Number.Word

open Number.Word (InRange)

/-! ## The ratio -/

namespace Download

variable (d : Download)

/-- The uploaded bytes for each thousand that are done, rounded toward zero. -/
def exactRatio : Int :=
  (1000 * d.up.total.toInt).tdiv d.bytesDone.toInt

variable {d}

/-- During verification and before anything is done there is no ratio. -/
theorem ratio_eq_zero (h : d.isHashChecking = true ∨ d.bytesDone.toInt ≤ 0) : d.ratio = 0 :=
  if_pos h

/-- The quotient is a word, so it is never cut off itself. -/
theorem toInt_ratio (hchecking : d.isHashChecking = false) (hdone : 0 < d.bytesDone.toInt) :
    d.ratio.toInt = (clamp (1000 * d.up.total.toInt)).toInt.tdiv d.bytesDone.toInt := by
  have hcounted : ¬(d.isHashChecking = true ∨ d.bytesDone.toInt ≤ 0) := by
    rw [hchecking]
    simpa using hdone
  have hquotient := (Number.Word.inRange_toInt (clamp (1000 * d.up.total.toInt))).tdiv hdone
  rw [ratio, if_neg hcounted, Int.mul_comm]
  exact Number.Word.toInt_clamp_of_inRange hquotient

end Download

namespace Engine

variable {e : Engine} {id : DownloadId} {d : Download}

theorem shows_ratio (hintact : e.commands.Intact) (hlive : e.session.get? id = some d) :
    e.Shows "d.get_ratio" (.download id) (.int d.ratio) := by
  have hb : Builtin.readInt "d.get_ratio" .ratio ∈ Builtin.all := by
    simp [Builtin.all, Builtin.statistics]
  exact shows_read hintact hb rfl hlive rfl

/-- **Which ratios are exact.** Where the built-in keys are bound to the built-in commands, the ratio
of a live download is shown. It is zero during verification and before anything is done. Otherwise it
is the quotient of the uploaded bytes in thousandths, cut off to a word, and is not cut off itself; and
it is the exact ratio if and only if this ratio of the bytes that are done is a word. -/
theorem ratio_exact_iff (hintact : e.commands.Intact) (hlive : e.session.get? id = some d) :
    e.Shows "d.get_ratio" (.download id) (.int d.ratio) ∧
    (d.isHashChecking = true ∨ d.bytesDone.toInt ≤ 0 → d.ratio = 0) ∧
    (d.isHashChecking = false → 0 < d.bytesDone.toInt →
      d.ratio.toInt = (clamp (1000 * d.up.total.toInt)).toInt.tdiv d.bytesDone.toInt ∧
      (d.ratio.toInt = d.exactRatio ↔ InRange (d.exactRatio * d.bytesDone.toInt))) := by
  refine ⟨shows_ratio hintact hlive, Download.ratio_eq_zero, fun hchecking hdone => ?_⟩
  have hratio := Download.toInt_ratio hchecking hdone
  refine ⟨hratio, ?_⟩
  rw [hratio]
  exact Number.Word.tdiv_clamp_eq_iff hdone

end Engine

/-- A session with one download that has uploaded and done so many bytes. -/
def Session.seeding (uploaded done : Int64) : Session :=
  (Session.empty.insert
    { Download.fresh "a" .zero with up := ⟨0, uploaded⟩, bytesDone := done }).2

namespace Engine

/-- The thousandths are no word here, but all whole multiples of a million among them are. -/
theorem negative_ratio_exact : ∃ d ratio,
    (Session.seeding (-9223372036854776) 1000000).get? ⟨0, 0⟩ = some d ∧
    ¬InRange (1000 * d.up.total.toInt) ∧ d.exactRatio = -9223372036854 ∧
    (withBuiltins (.seeding (-9223372036854776) 1000000) .empty).Shows "d.get_ratio"
      (.download ⟨0, 0⟩) (.int ratio) ∧
    ratio.toInt = d.exactRatio := by
  have hintact := intact_withBuiltins (.seeding (-9223372036854776) 1000000) .empty
  have hlive : (Session.seeding (-9223372036854776) 1000000).get? ⟨0, 0⟩ =
    some { Download.fresh "a" .zero with up := ⟨0, -9223372036854776⟩, bytesDone := 1000000 } := rfl
  obtain ⟨hshows, -, hexact⟩ := ratio_exact_iff hintact hlive
  obtain ⟨-, hiff⟩ := hexact rfl (by decide)
  unfold InRange least greatest at *
  exact ⟨_, _, hlive, by decide, by decide, hshows, hiff.2 (by decide)⟩

/-- **Not every ratio is exact that could be shown.** Where as many bytes are uploaded as are done, and
they are the most that a word counts, the ratio is one thousandth of what it should be. -/
theorem ratio_not_exact : ¬∀ (e : Engine) (id : DownloadId) (d : Download), e.commands.Intact →
    e.session.get? id = some d → d.isHashChecking = false → 0 < d.bytesDone.toInt →
      InRange d.exactRatio → ∃ ratio, e.Shows "d.get_ratio" (.download id) (.int ratio) ∧
        ratio.toInt = d.exactRatio := by
  intro h
  have hintact := intact_withBuiltins (.seeding Int64.maxValue Int64.maxValue) .empty
  have hlive : (Session.seeding Int64.maxValue Int64.maxValue).get? ⟨0, 0⟩ = some
    { Download.fresh "a" .zero with up := ⟨0, Int64.maxValue⟩, bytesDone := Int64.maxValue } := rfl
  obtain ⟨ratio, hshows, hexact⟩ := h _ ⟨0, 0⟩ _ hintact hlive rfl (by decide) (by
    unfold InRange least greatest
    decide)
  have hsame := (hshows .empty hopLimit scriptLimit).symm.trans
    (shows_ratio hintact hlive .empty hopLimit scriptLimit)
  cases hsame
  revert hexact
  decide

end Engine

end TorrentControl
