import TorrentControl.Proofs.Locality
import TorrentControl.Proofs.Variables

/-! # Appending to the views once

`d.views.push_back_unique` looks for the first item of its argument and appends the argument as a
whole, a list of one item as the item. What it looks for is what it appends, unless the argument is a
list of two or more: such a list is not found when it is there, and is appended again. -/

namespace TorrentControl

/-! ## What is looked for and what is appended -/

/-- A list of two or more. -/
def Value.IsSeveral (v : Value) : Prop :=
  ∃ first second rest, v = .list (first :: second :: rest)

/-- A list is none of its items. -/
theorem Value.ne_list_cons (first : Value) (rest : List Value) : first ≠ .list (first :: rest) := by
  intro h
  have hsize := congrArg sizeOf h
  simp only [Value.list.sizeOf_spec, List.cons.sizeOf_spec] at hsize
  omega

theorem argument_eq_appended_iff {args : Value} : args.argument = appended args ↔ ¬ args.IsSeveral := by
  constructor
  · rintro h ⟨first, second, rest, rfl⟩
    exact Value.ne_list_cons first (second :: rest) h
  · intro h
    match args with
    | .list (first :: second :: rest) => exact (h ⟨first, second, rest, rfl⟩).elim
    | .list [_] | .list [] => rfl
    | .empty | .int _ | .text _ | .raw _ | .map _ => rfl

theorem appended_of_isSeveral {args : Value} (h : args.IsSeveral) : appended args = args := by
  obtain ⟨first, second, rest, rfl⟩ := h
  rfl

section PushedOnce

variable {items : List Value} {args : Value}

theorem pushedOnce_of_mem (h : args.argument ∈ items) : pushedOnce items args = items :=
  if_pos h

theorem pushedOnce_of_not_mem (h : args.argument ∉ items) :
    pushedOnce items args = items ++ [appended args] :=
  if_neg h

theorem nodup_pushedOnce_iff (h : items.Nodup) : (pushedOnce items args).Nodup ↔
    ¬ (args.IsSeveral ∧ args.argument ∉ items ∧ args ∈ items) := by
  by_cases hmem : args.argument ∈ items
  · simp [pushedOnce_of_mem hmem, h, hmem]
  · have hnodup : (items ++ [appended args]).Nodup ↔ appended args ∉ items := by
      rw [← List.concat_eq_append, List.nodup_concat]
      simp [h]
    rw [pushedOnce_of_not_mem hmem, hnodup]
    by_cases hseveral : args.IsSeveral
    · simp [appended_of_isSeveral hseveral, hseveral, hmem]
    · simp [← argument_eq_appended_iff.2 hseveral, hseveral, hmem]

theorem pushedOnce_twice_iff : pushedOnce (pushedOnce items args) args = pushedOnce items args ↔
    ¬ (args.IsSeveral ∧ args.argument ∉ items) := by
  by_cases hmem : args.argument ∈ items
  · simp [pushedOnce_of_mem hmem, hmem]
  · have hfound : args.argument ∈ items ++ [appended args] ↔ ¬ args.IsSeveral := by
      rw [← argument_eq_appended_iff]
      simp [hmem]
    rw [pushedOnce_of_not_mem hmem, pushedOnce]
    by_cases hseveral : args.IsSeveral
    · simp [hfound, hseveral, hmem]
    · simp [hfound, hseveral]

end PushedOnce

/-! ## Calls -/

namespace Engine

/-- The engine after the argument was pushed once to the views of a download. -/
def pushingView (e : Engine) (id : DownloadId) (d : Download) (views : List Value) (args : Value) :
    Engine :=
  e.put id (some (d.write "views" (.list (pushedOnce views args))))

section PushUnique

variable {e : Engine} {entry : CommandEntry} {id : DownloadId} {d : Download} {views : List Value}

theorem run_pushUnique (hentry : e.commands.find? "d.views.push_back_unique" = some entry)
    (hcallable : entry.callable = .download (.list "views" .pushUnique))
    (hlive : e.session.get? id = some d) (hviews : d.stateVariable "views" = .ok (.list views))
    (args : Value) (hops left : Nat) :
    e.run ((Job.call "d.views.push_back_unique" (.download id) args).run hops left) =
      (.ok .empty, e.pushingView id d views args) :=
  run_performs hentry hcallable (performs_list "views" .pushUnique args) hlive
    (Download.Edit.run_pushUnique hviews args) hops left

/-- The views are read as they were pushed. -/
theorem views_write (hviews : d.stateVariable "views" = .ok (.list views)) (items : List Value) :
    (d.write "views" (.list items)).stateVariable "views" = .ok (.list items) := by
  rw [(Download.HasSection.of_stateVariable hviews).stateVariable_write, if_pos rfl]

/-- A second call with the same argument. -/
theorem run_pushUnique_again_iff
    (hentry : e.commands.find? "d.views.push_back_unique" = some entry)
    (hcallable : entry.callable = .download (.list "views" .pushUnique))
    (hlive : e.session.get? id = some d) (hviews : d.stateVariable "views" = .ok (.list views))
    (args : Value) (hops left : Nat) :
    (e.pushingView id d views args).run
        ((Job.call "d.views.push_back_unique" (.download id) args).run hops left) =
      (.ok .empty, e.pushingView id d views args) ↔ ¬ (args.IsSeveral ∧ args.argument ∉ views) := by
  have htwice := run_pushUnique (e := e.pushingView id d views args) hentry hcallable
    (get?_put hlive _) (views_write hviews _) args hops left
  rw [htwice, ← pushedOnce_twice_iff]
  simp only [pushingView, put_put, (Download.HasSection.of_stateVariable hviews).write_write]
  constructor
  · intro hsame
    have hput := congrArg (·.session.get? id) (Prod.mk.inj hsame).2
    simp only [get?_put hlive, Option.some.injEq] at hput
    have hviews' := congrArg (·.stateVariable "views") hput
    simp only [views_write hviews, Except.ok.injEq, Value.list.injEq] at hviews'
    exact hviews'
  · intro hsame
    rw [hsame]

/-- **Distinct views stay distinct, and a second call with the same argument changes nothing**, unless
the argument is a list of two or more whose first item is no view. Such a list is appended by each of
the calls, also where it was a view before. -/
theorem push_unique_once_iff (hentry : e.commands.find? "d.views.push_back_unique" = some entry)
    (hcallable : entry.callable = .download (.list "views" .pushUnique))
    (hlive : e.session.get? id = some d) (hviews : d.stateVariable "views" = .ok (.list views))
    (hdistinct : views.Nodup) (args : Value) (hops left : Nat) : ∃ t changed views',
      e.run ((Job.call "d.views.push_back_unique" (.download id) args).run hops left) =
        (.ok .empty, t) ∧
      t.session.get? id = some changed ∧ changed.stateVariable "views" = .ok (.list views') ∧
      views' = (if args.argument ∈ views then views else views ++ [appended args]) ∧
      (views'.Nodup ↔ ¬ (args.IsSeveral ∧ args.argument ∉ views ∧ args ∈ views)) ∧
      (t.run ((Job.call "d.views.push_back_unique" (.download id) args).run hops left) =
        (.ok .empty, t) ↔ ¬ (args.IsSeveral ∧ args.argument ∉ views)) :=
  ⟨_, _, _, run_pushUnique hentry hcallable hlive hviews args hops left, get?_put hlive _,
    views_write hviews _, rfl, nodup_pushedOnce_iff hdistinct,
    run_pushUnique_again_iff hentry hcallable hlive hviews args hops left⟩

end PushUnique

theorem exists_bound_pushUnique {e : Engine} (h : e.commands.Intact) : ∃ entry,
    e.commands.find? "d.views.push_back_unique" = some entry ∧
      entry.callable = .download (.list "views" .pushUnique) :=
  h (.order "d.views.push_back_unique" (.list "views" .pushUnique))
    (by simp [Builtin.all, Builtin.views])

/-- A fresh download has no views. A pair of names is appended to them, and once more by a second
call. -/
theorem push_unique_pair_again : ∃ t,
    (withBuiltins Session.sample .empty).call "d.views.push_back_unique" (.download ⟨0, 0⟩)
      (.list [.text "a", .text "b"]) = (.ok .empty, t) ∧
    t.call "d.views.push_back_unique" (.download ⟨0, 0⟩) (.list [.text "a", .text "b"]) ≠
      (.ok .empty, t) := by
  obtain ⟨entry, hentry, hcallable⟩ :=
    exists_bound_pushUnique (intact_withBuiltins Session.sample .empty)
  have hlive : Session.sample.get? ⟨0, 0⟩ = some (.fresh "a" .zero) := rfl
  obtain ⟨t, _, _, hrun, -, -, -, -, hagain⟩ := push_unique_once_iff hentry hcallable hlive rfl
    List.nodup_nil (.list [.text "a", .text "b"]) hopLimit scriptLimit
  exact ⟨t, hrun, fun hsame => hagain.1 hsame ⟨⟨_, _, _, rfl⟩, nofun⟩⟩

/-- **Not every call can be repeated without effect.** -/
theorem push_unique_not_idempotent : ¬ ∀ (e : Engine) (id : DownloadId) (d : Download)
    (views : List Value) (args : Value), e.commands.Intact → e.session.get? id = some d →
      d.stateVariable "views" = .ok (.list views) → views.Nodup → ∃ t changed views',
        e.call "d.views.push_back_unique" (.download id) args = (.ok .empty, t) ∧
        t.session.get? id = some changed ∧ changed.stateVariable "views" = .ok (.list views') ∧
        views'.Nodup ∧
        t.call "d.views.push_back_unique" (.download id) args = (.ok .empty, t) := by
  intro h
  have hintact := intact_withBuiltins Session.sample .empty
  have hlive : Session.sample.get? ⟨0, 0⟩ = some (.fresh "a" .zero) := rfl
  have hviews : (Download.fresh "a" .zero).stateVariable "views" = .ok (.list []) := rfl
  obtain ⟨entry, hentry, hcallable⟩ := exists_bound_pushUnique hintact
  obtain ⟨t, _, _, hrun, -, -, -, hagain⟩ := h (withBuiltins Session.sample .empty) ⟨0, 0⟩ _ []
    (.list [.text "a", .text "b"]) hintact hlive hviews List.nodup_nil
  have honce := run_pushUnique hentry hcallable hlive hviews (.list [.text "a", .text "b"])
    hopLimit scriptLimit
  obtain rfl := (Prod.mk.inj (hrun.symm.trans honce)).2
  exact (run_pushUnique_again_iff hentry hcallable hlive hviews _ hopLimit scriptLimit).1 hagain
    ⟨⟨_, _, _, rfl⟩, nofun⟩

end Engine

end TorrentControl
