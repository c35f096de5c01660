import Mathlib.Order.Defs.Unbundled
import TorrentControl.Proofs.ReadOnly
import TorrentControl.Proofs.Settings

/-! # Downloads in the order of a command

Values of one scalar kind are in a strict order, and no others are ordered at all. A comparison executes
its text on both downloads and answers by the order of the two values. So where the text answers values
of one scalar kind and changes nothing, all comparisons of downloads by this text come from one order,
that of the values. -/

namespace TorrentControl

/-! ## The order of values -/

namespace Value

variable {v w x : Value} {o : Ordering}

theorem compareBytes_eq (as bs : List UInt8) :
    compareBytes as bs = compare (as.map UInt8.toNat) (bs.map UInt8.toNat) := by
  induction as generalizing bs with
  | nil => cases bs <;> rfl
  | cons a as ih =>
    cases bs with
    | nil => rfl
    | cons b bs => rw [compareBytes, ih, List.map_cons, List.map_cons, List.compare_cons_cons]

/-- The kinds of values that are ordered. -/
def scalarKinds : List ValueKind :=
  [.empty, .int, .text, .raw]

/-- **Values are ordered exactly where they are of one scalar kind.** -/
theorem exists_order_iff : (∃ o, v.order w = .ok o) ↔ v.kind = w.kind ∧ v.kind ∈ scalarKinds := by
  cases v <;> cases w <;> simp [order, kind, scalarKinds]

theorem order_swap (h : v.order w = .ok o) : w.order v = .ok o.swap := by
  cases v with
  | empty =>
    cases w with
    | empty =>
      cases h
      rfl
    | _ => cases h
  | int a =>
    cases w with
    | int b =>
      cases h
      exact congrArg Except.ok Std.OrientedCmp.eq_swap
    | _ => cases h
  | text a =>
    cases w with
    | text b =>
      cases h
      exact congrArg Except.ok (Std.OrientedOrd.eq_swap (a := b) (b := a))
    | _ => cases h
  | raw a =>
    cases w with
    | raw b =>
      cases h
      rw [order, compareBytes_eq, compareBytes_eq, ← Std.OrientedCmp.eq_swap]
    | _ => cases h
  | list | map => cases h

theorem order_eq_iff (h : v.order w = .ok o) : o = .eq ↔ v = w := by
  cases v with
  | empty =>
    cases w with
    | empty =>
      cases h
      simp
    | _ => cases h
  | int a =>
    cases w with
    | int b =>
      cases h
      rw [Std.LawfulEqCmp.compare_eq_iff_eq, Int64.toInt_inj, int.injEq]
    | _ => cases h
  | text a =>
    cases w with
    | text b =>
      cases h
      rw [text.injEq]
      exact Std.LawfulEqOrd.compare_eq_iff_eq (a := a) (b := b)
    | _ => cases h
  | raw a =>
    cases w with
    | raw b =>
      cases h
      rw [compareBytes_eq, Std.LawfulEqCmp.compare_eq_iff_eq, raw.injEq]
      exact (List.map_injective_iff.2 fun _ _ => UInt8.toNat_inj.1).eq_iff
    | _ => cases h
  | list | map => cases h

theorem order_trans (hvw : v.order w = .ok .lt) (hwx : w.order x = .ok .lt) :
    v.order x = .ok .lt := by
  cases v with
  | empty => cases w <;> cases hvw
  | int a =>
    cases w with
    | int b =>
      cases x with
      | int c =>
        exact congrArg Except.ok (Std.TransCmp.lt_trans (Except.ok.inj hvw) (Except.ok.inj hwx))
      | _ => cases hwx
    | _ => cases hvw
  | text a =>
    cases w with
    | text b =>
      cases x with
      | text c =>
        have hab : compare a b = .lt := Except.ok.inj hvw
        have hbc : compare b c = .lt := Except.ok.inj hwx
        have hac : compare a c = .lt := Std.TransCmp.lt_trans hab hbc
        exact congrArg Except.ok hac
      | _ => cases hwx
    | _ => cases hvw
  | raw a =>
    cases w with
    | raw b =>
      cases x with
      | raw c =>
        have hab := Except.ok.inj hvw
        have hbc := Except.ok.inj hwx
        rw [compareBytes_eq] at hab hbc
        rw [order, compareBytes_eq, Std.TransCmp.lt_trans hab hbc]
      | _ => cases hwx
    | _ => cases hvw
  | list | map => cases hvw

/-- **The values of one scalar kind are in a strict order, up to equality.** -/
theorem isStrictWeakOrder {k : ValueKind} (hk : k ∈ scalarKinds) :
    IsStrictWeakOrder {v : Value // v.kind = k} fun v w => v.val.order w.val = .ok .lt where
  irrefl v h := by cases (order_eq_iff h).2 rfl
  trans v w x := order_trans
  incomp_trans v w x hvw hwx := by
    have heq {v w : {v : Value // v.kind = k}}
        (h : ¬ v.val.order w.val = .ok .lt ∧ ¬ w.val.order v.val = .ok .lt) : v = w := by
      obtain ⟨o, ho⟩ := exists_order_iff.2
        ⟨v.property.trans w.property.symm, by rwa [v.property]⟩
      cases o with
      | lt => exact (h.1 ho).elim
      | eq => exact Subtype.ext ((order_eq_iff ho).1 rfl)
      | gt => exact (h.2 (order_swap ho)).elim
    cases heq hvw
    exact hwx

end Value

/-! ## Comparing downloads -/

section Comparison

open Run Plan TorrentControl.Task

variable {e : Engine} {hops left : Nat} {args v w : Value} {text : String} {a b : DownloadId}

/-- A text that is not empty is the one to compare by. -/
theorem exists_comparisonText (htext : args.argument = .text text) (hne : text ≠ "") :
    ∃ inner, comparisonText args = .ok inner ∧ inner.text = text := by
  have hsaid {v : Value} (h : ∀ text, v = .text text → args.Says text) (hv : v = .text text) :
      ∃ inner, InnerText.ofValue v h = .ok inner ∧ inner.text = text := by
    subst hv
    exact ⟨_, rfl, rfl⟩
  obtain ⟨inner, hinner, rfl⟩ := hsaid (fun _ => Value.says_argument) htext
  refine ⟨inner, ?_, rfl⟩
  rw [comparisonText, hinner]
  exact if_neg hne

/-- A text that answers is not empty. -/
theorem ne_empty_of_run_execute {target : Target} {t : Engine}
    (h : e.run ((Job.execute target text).run hops left) = (.ok v, t)) : text ≠ "" := by
  rintro rfl
  rw [run_eq ⟨e, left, .execute target ""⟩ hops] at h
  cases h

/-- **A comparison answers by the order of what the text answers on the two downloads.** -/
theorem Engine.run_comparison (hintact : e.commands.Intact) (htext : args.argument = .text text)
    (hv : e.run ((Job.execute (.download a) text).run hops left) = (.ok v, e))
    (hw : e.run ((Job.execute (.download b) text).run hops left) = (.ok w, e)) {o : Ordering}
    (ho : v.order w = .ok o) (command : PairCommand) :
    e.run ((Job.call command.key (.pair a b) args).run hops left) = (.ok (command.verdict o), e) := by
  obtain ⟨c, hc, hkey, hcallable⟩ := command.builtin
  obtain ⟨entry, hentry, hserves⟩ := hintact c hc
  obtain ⟨inner, hinner, rfl⟩ := exists_comparisonText htext (ne_empty_of_run_execute hv)
  have haim : e.aim command.key (.pair a b) = .ok (.pair command a b) :=
    aim_of_receives (hkey ▸ hentry) (hserves.trans hcallable ▸ .pair rfl)
  have hfirst : e.run (errandRun hops left (.text (.download a) inner)) = (.ok v, e) := hv
  have hsecond : e.run (errandRun hops left (.text (.download b) inner)) = (.ok w, e) := hw
  rw [run_call_of_aim haim, Invocation.plan, PairCommand.plan, hinner, Run.run_lift_ok,
    Plan.run_bind, Plan.run_request, run_bind_ok e hfirst, Plan.run_bind, Plan.run_request,
    run_bind_ok e hsecond, ho]
  rfl

/-- What the command says of two downloads: it answers the number, and leaves the engine as it was. -/
def Engine.Says (e : Engine) (hops left : Nat) (args : Value) (command : PairCommand)
    (a b : DownloadId) (n : Int64) : Prop :=
  e.run ((Job.call command.key (.pair a b) args).run hops left) = (.ok (.int n), e)

/-- On every live download the text answers a value of the kind, and leaves the engine as it was. -/
def Engine.Ranks (e : Engine) (hops left : Nat) (text : String) (k : ValueKind) : Prop :=
  ∀ id, (e.session.get? id).isSome → ∃ v : Value, v.kind = k ∧
    e.run ((Job.execute (.download id) text).run hops left) = (.ok v, e)

/-- A text that only reads need only answer. -/
theorem Job.ReadsOnly.ranks {k : ValueKind} (hreads : ∀ x, Job.ReadsOnly (.execute x text))
    (hintact : e.commands.Intact) (hanswers : ∀ id, (e.session.get? id).isSome → ∃ v : Value,
      v.kind = k ∧ (e.run ((Job.execute (.download id) text).run hops left)).1 = .ok v) :
    e.Ranks hops left text k := by
  intro id hlive
  obtain ⟨v, hk, hanswer⟩ := hanswers id hlive
  obtain ⟨r, hrun⟩ := (hreads (.download id)).quiet hintact hops left
  have hsame : (e.run ((Job.execute (.download id) text).run hops left)).2 = e := by rw [hrun]
  exact ⟨v, hk, Prod.ext hanswer hsame⟩

namespace Engine

variable {o : Ordering} {k : ValueKind}

theorem says_iff (hintact : e.commands.Intact) (htext : args.argument = .text text)
    (hv : e.run ((Job.execute (.download a) text).run hops left) = (.ok v, e))
    (hw : e.run ((Job.execute (.download b) text).run hops left) = (.ok w, e))
    (ho : v.order w = .ok o) (command : PairCommand) (n : Int64) :
    e.Says hops left args command a b n ↔ command.verdict o = .int n := by
  rw [Says, run_comparison hintact htext hv hw ho]
  simp

/-- The downloads that are there. -/
abbrev LiveId (e : Engine) : Type :=
  {id : DownloadId // (e.session.get? id).isSome}

/-- **The smaller of two downloads is so in a strict order**, in which those are equal that the text
answers the same on. -/
theorem isStrictWeakOrder_less (hintact : e.commands.Intact) (htext : args.argument = .text text)
    (hk : k ∈ Value.scalarKinds) (hranks : e.Ranks hops left text k) :
    IsStrictWeakOrder e.LiveId fun a b => e.Says hops left args .less a b 1 := by
  choose answer hkind hrun using fun id : e.LiveId => hranks id id.property
  let rank (id : e.LiveId) : {v : Value // v.kind = k} := ⟨answer id, hkind id⟩
  have hless (a b : e.LiveId) :
      e.Says hops left args .less a b 1 ↔ (rank a).val.order (rank b).val = .ok .lt := by
    obtain ⟨o, ho⟩ := Value.exists_order_iff.2
      ⟨(hkind a).trans (hkind b).symm, show (answer a).kind ∈ _ by rwa [hkind]⟩
    rw [says_iff hintact htext (hrun a) (hrun b) ho, show (rank a).val.order (rank b).val = .ok o from ho]
    cases o <;> decide
  have horder := Value.isStrictWeakOrder hk
  exact {
    irrefl := fun a h => horder.irrefl (rank a) ((hless a a).1 h)
    trans := fun a b c hab hbc =>
      (hless a c).2 (horder.trans (rank a) (rank b) (rank c) ((hless a b).1 hab) ((hless b c).1 hbc))
    incomp_trans := fun a b c hab hbc => by
      simp only [hless] at hab hbc ⊢
      exact horder.incomp_trans (rank a) (rank b) (rank c) hab hbc }

end Engine

end Comparison

/-- **Downloads are compared consistently.** Two values are ordered one way exactly if they are ordered
the other way. Where the built-in keys are bound to the built-in commands, and a text answers a value
of one and the same scalar kind on every live download and leaves the engine as it was, which it does
if it only reads: by this text `less` is a strict weak order on the live downloads, `greater` says of
two downloads what `less` says of them the other way round, `compare` says the opposite of what it says
the other way round, and zero exactly if the two values are equal. Of any two downloads either the
first one is less, or it is greater, or they compare as equal. -/
theorem Engine.compares_consistently :
    (∀ v w : Value, (∃ o, v.order w = .ok o) ↔ ∃ o, w.order v = .ok o) ∧
    ∀ (e : Engine) (hops left : Nat) (args : Value) (text : String) (k : ValueKind),
      e.commands.Intact → args.argument = .text text → k ∈ Value.scalarKinds →
      e.Ranks hops left text k →
        (IsStrictWeakOrder e.LiveId fun a b => e.Says hops left args .less a b 1) ∧
        ∀ a b : e.LiveId,
          (∃ n, e.Says hops left args .less b a n ∧ e.Says hops left args .greater a b n) ∧
          (∃ n, e.Says hops left args .compare b a n ∧ e.Says hops left args .compare a b (-n)) ∧
          (∀ v w, e.run ((Job.execute (.download a) text).run hops left) = (.ok v, e) →
            e.run ((Job.execute (.download b) text).run hops left) = (.ok w, e) →
              (e.Says hops left args .compare a b 0 ↔ v = w)) ∧
          ∃! o : Ordering, match o with
            | .lt => e.Says hops left args .less a b 1
            | .eq => e.Says hops left args .compare a b 0
            | .gt => e.Says hops left args .greater a b 1 := by
  refine ⟨fun v w => ?_, fun e hops left args text k hintact htext hk hranks =>
    ⟨isStrictWeakOrder_less hintact htext hk hranks, fun a b => ?_⟩⟩
  · exact ⟨fun ⟨_, h⟩ => ⟨_, Value.order_swap h⟩, fun ⟨_, h⟩ => ⟨_, Value.order_swap h⟩⟩
  obtain ⟨v, hv, hfirst⟩ := hranks a a.property
  obtain ⟨w, hw, hsecond⟩ := hranks b b.property
  obtain ⟨o, ho⟩ := Value.exists_order_iff.2 ⟨hv.trans hw.symm, by rwa [hv]⟩
  have hforth := says_iff hintact htext hfirst hsecond ho
  have hback := says_iff hintact htext hsecond hfirst (Value.order_swap ho)
  simp only [hforth, hback]
  refine ⟨?_, ?_, fun v' w' hv' hw' => ?_, o, ?_, fun p hp => ?_⟩
  · cases o <;> exact ⟨_, rfl, rfl⟩
  · cases o <;> exact ⟨_, rfl, rfl⟩
  · cases hfirst.symm.trans hv'
    cases hsecond.symm.trans hw'
    rw [← Value.order_eq_iff ho]
    cases o <;> decide
  · cases o <;> rfl
  · cases o <;> cases p <;> first | rfl | exact absurd hp (by decide)

/-- A session with three downloads, of which the last one is named as the first one is. -/
def Session.namesakes : Session :=
  ["b", "a", "b"].foldl (fun s name => (s.insert (.fresh name .zero)).2) .empty

def Engine.namesakes : Engine :=
  withBuiltins .namesakes .empty

/-- By name, the second download is less than the first one, and the third one compares as equal to
it. -/
theorem Engine.namesakes_compare : namesakes.commands.Intact ∧
    namesakes.Ranks hopLimit scriptLimit "d.get_name" .text ∧
    (IsStrictWeakOrder namesakes.LiveId fun a b =>
      namesakes.Says hopLimit scriptLimit (.text "d.get_name") .less a b 1) ∧
    namesakes.Says hopLimit scriptLimit (.text "d.get_name") .compare ⟨0, 0⟩ ⟨2, 0⟩ 0 ∧
    ¬ namesakes.Says hopLimit scriptLimit (.text "d.get_name") .compare ⟨1, 0⟩ ⟨0, 0⟩ 0 := by
  have hintact : namesakes.commands.Intact := intact_withBuiltins .namesakes .empty
  have hb : Builtin.readText "d.get_name" .name ∈ Builtin.all := by
    simp [Builtin.all, Builtin.identity]
  have hparse : Statement.parse "d.get_name" = .ok ⟨"d.get_name", .empty⟩ := rfl
  have hname {id : DownloadId} {d : Download} (hlive : namesakes.session.get? id = some d) :
      namesakes.run ((Job.execute (.download id) "d.get_name").run hopLimit scriptLimit) =
        (.ok (.text d.name), namesakes) :=
    (Task.run_execute hparse ..).trans
      (run_read (b := .readText "d.get_name" .name) hintact hb rfl hlive ..)
  have hranks : namesakes.Ranks hopLimit scriptLimit "d.get_name" .text := by
    refine Job.ReadsOnly.ranks (fun x => .of_parse hparse (.reading hb (by decide) x .empty)) hintact ?_
    intro id hlive
    obtain ⟨d, hd⟩ := Option.isSome_iff_exists.1 hlive
    exact ⟨.text d.name, rfl, by rw [hname hd]⟩
  obtain ⟨horder, hpairs⟩ := compares_consistently.2 namesakes hopLimit scriptLimit
    (.text "d.get_name") "d.get_name" .text hintact rfl (by decide) hranks
  have hequal {a b : DownloadId} {c d : Download} (ha : namesakes.session.get? a = some c)
      (hb : namesakes.session.get? b = some d) :=
    (hpairs ⟨a, Option.isSome_of_eq_some ha⟩ ⟨b, Option.isSome_of_eq_some hb⟩).2.2.1 _ _
      (hname ha) (hname hb)
  refine ⟨hintact, hranks, horder, (hequal (a := ⟨0, 0⟩) (b := ⟨2, 0⟩) rfl rfl).2 rfl, fun hsays => ?_⟩
  have hsame := (hequal (a := ⟨1, 0⟩) (b := ⟨0, 0⟩) rfl rfl).1 hsays
  exact absurd (Value.text.inj hsame) (by decide)

end TorrentControl
