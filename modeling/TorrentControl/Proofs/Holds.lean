import TorrentControl.Proofs.Task
import TorrentControl.Session.Manifest

/-! # What holds of all downloads

A property of downloads that the bound commands keep when they amend one holds of every download of
the session, at every task that a job leads to and after any sequence of jobs. The registry may be
rewritten meanwhile: a key only ever gets bound to a script, which amends nothing itself, or to what
another key is bound to. -/

namespace TorrentControl

/-! ## Sessions -/

namespace Session

variable {I : Download → Prop} {s t : Session} {id : DownloadId} {d : Download}

/-- Every download in the slots has the property. -/
def Holds (I : Download → Prop) (s : Session) : Prop :=
  ∀ slot ∈ s.slots, ∀ d, slot.download = some d → I d

theorem holds_empty : empty.Holds I :=
  fun _ hslot => nomatch hslot

theorem Holds.get? (h : s.Holds I) (hd : s.get? id = some d) : I d := by
  simp only [Session.get?, Option.bind_eq_bind, Option.bind_eq_some_iff] at hd
  obtain ⟨slot, hslot, hfound⟩ := hd
  split at hfound
  · exact h slot (List.mem_of_getElem? hslot) d hfound
  · cases hfound

theorem Holds.set (h : s.Holds I) (index : Nat) {slot : Slot}
    (hslot : ∀ d, slot.download = some d → I d) :
    Holds I { s with slots := s.slots.set index slot } := by
  intro other hother
  rcases List.mem_or_eq_of_mem_set hother with hother | rfl
  · exact h other hother
  · exact hslot

theorem Holds.append (h : s.Holds I) (hd : I d) : (s.append d).2.Holds I := by
  intro slot hslot
  rcases List.mem_append.1 hslot with hslot | hslot
  · exact h slot hslot
  · cases List.mem_singleton.1 hslot
    intro found hfound
    cases hfound
    exact hd

theorem Holds.refill (h : s.Holds I) (hd : I d) (index : UInt32) :
    (s.refill index d).2.Holds I := by
  unfold Session.refill
  split
  · refine h.set _ fun found hfound => ?_
    cases hfound
    exact hd
  · exact h.append hd

theorem Holds.insert (h : s.Holds I) (hd : I d) : (s.insert d).2.Holds I := by
  obtain ⟨slots, free, order⟩ := s
  cases free with
  | nil => exact Holds.append h hd
  | cons index free => exact Holds.refill (s := ⟨slots, free, order⟩) h hd index

theorem Holds.replace (h : s.Holds I) (hd : I d) : (s.replace id d).Holds I := by
  unfold Session.replace
  split
  · refine h.set _ fun found hfound => ?_
    cases hfound
    exact hd
  · exact h

theorem Holds.remove (h : s.Holds I) (hremove : s.remove id = some (d, t)) : t.Holds I := by
  simp only [Session.remove, Option.bind_eq_bind, Option.bind_eq_some_iff, Option.pure_def,
    Option.some.injEq, Prod.mk.injEq] at hremove
  obtain ⟨_, _, _, rfl⟩ := hremove
  exact h.set _ fun _ hfound => nomatch hfound

end Session

/-- What holds of the empty session, and is kept where a download of a manifest is inserted that has
another hash than those before it, holds of the session of the manifest. -/
theorem SessionManifest.build_induction {P : Session → Prop} {m : SessionManifest} {s : Session}
    (hbuild : m.build = .ok s) (hempty : P .empty)
    (hinsert : ∀ described ∈ m.downloads, ∀ d before, described.build = .ok d →
      before.findByHash? d.infoHash = none → P before → P (before.insert d).2) : P s := by
  have fold : ∀ (rest : List DownloadManifest) (before : Session), P before →
      (∀ described ∈ rest, ∀ d before, described.build = .ok d →
        before.findByHash? d.infoHash = none → P before → P (before.insert d).2) →
      rest.foldlM (fun session described => do
        let d ← described.build
        if (session.findByHash? d.infoHash).isSome then
          throw (ManifestError.duplicateHash d.hashText)
        return (session.insert d).2) before = .ok s → P s := by
    intro rest
    induction rest with
    | nil =>
      intro before hbefore _ hs
      cases hs
      exact hbefore
    | cons described rest ih =>
      intro before hbefore hrest hs
      rw [List.foldlM_cons] at hs
      cases hd : described.build with
      | error c =>
        rw [hd] at hs
        cases hs
      | ok d =>
        rw [hd] at hs
        simp only [bind, Except.bind] at hs
        split at hs
        · cases hs
        · rename_i next hnext
          split at hnext
          · cases hnext
          · rename_i hnew
            cases hnext
            have hnone : before.findByHash? d.infoHash = none := by simpa using hnew
            exact ih _ (hrest described (.head _) d before hd hnone hbefore)
              (fun other hother => hrest other (.tail _ hother)) hs
  exact fold m.downloads .empty hempty hinsert hbuild

/-- What holds of all downloads of a manifest as they are built holds of those of the session. -/
theorem SessionManifest.holds_of_build {I : Download → Prop} {m : SessionManifest} {s : Session}
    (hbuild : m.build = .ok s)
    (h : ∀ described ∈ m.downloads, ∀ d, described.build = .ok d → I d) : s.Holds I :=
  build_induction hbuild Session.holds_empty fun described hdescribed d _ hd _ hbefore =>
    hbefore.insert (h described hdescribed d hd)

/-! ## Registries -/

/-- Every key is bound to a callable of the set. -/
def Registry.Binds (C : Callable → Prop) (r : Registry) : Prop :=
  ∀ key entry, r.find? key = some entry → C entry.callable

theorem Registry.binds_builtin {C : Callable → Prop} (h : ∀ b ∈ Builtin.all, C b.callable) :
    builtin.Binds C := by
  intro key entry hentry
  obtain ⟨b, hb, -, hserves⟩ := find?_builtin hentry
  exact hserves.callable ▸ h b hb

/-- A set with all scripts is kept by whatever an act does to the registry. -/
theorem Registry.Binds.edit {C : Callable → Prop} (hscript : ∀ text, C (.script text))
    {e f : Engine} {inv : Invocation} (h : e.commands.Binds C) (hedit : e.Edit inv f) :
    f.commands.Binds C := by
  intro key entry hentry
  rcases hedit.binds hentry with hold | ⟨-, text, htext⟩ | ⟨-, source, original, hfound, hsame, -⟩
  · exact h key entry hold
  · exact htext ▸ hscript text
  · exact hsame ▸ h source original hfound

/-! ## Engines -/

/-- The invocations of the callable keep the property of what they amend. -/
def Callable.Keeps (I : Download → Prop) (callable : Callable) : Prop :=
  ∀ (inv : Invocation) (id : DownloadId) (f : Download → Download),
    inv.Of callable → inv.Amends id f → ∀ d, I d → I (f d)

/-- The downloads have the property, and the keys are bound to callables of the set. -/
structure Engine.Maintains (C : Callable → Prop) (I : Download → Prop) (e : Engine) : Prop where
  downloads : e.session.Holds I
  commands : e.commands.Binds C

/-- An engine with the built-in commands. -/
def Engine.withBuiltins (session : Session) (disk : Disk) : Engine :=
  { Engine.bare session disk with commands := .builtin }

theorem Engine.maintains_withBuiltins {C : Callable → Prop} {I : Download → Prop}
    {session : Session} (disk : Disk) (hsession : session.Holds I)
    (hbuiltin : ∀ b ∈ Builtin.all, C b.callable) :
    (Engine.withBuiltins session disk).Maintains C I := by
  have hcommands := Registry.binds_builtin hbuiltin
  unfold withBuiltins
  -- without this the unifier evaluates the whole registry
  generalize Registry.builtin = r at hcommands
  exact ⟨hsession, hcommands⟩

/-- The engine after some jobs, run one after the other. -/
def Engine.after (e : Engine) (jobs : List Job) : Engine :=
  jobs.foldl (fun e job => (e.run (job.run hopLimit scriptLimit)).2) e

theorem Engine.after_induction {P : Engine → Prop}
    (hrun : ∀ (e : Engine) (job : Job), P e → P (e.run (job.run hopLimit scriptLimit)).2)
    {e : Engine} (h : P e) (jobs : List Job) : P (e.after jobs) := by
  induction jobs generalizing e with
  | nil => exact h
  | cons job jobs ih => exact ih (hrun e job h)

section Acts

/- What every act of every invocation keeps. -/
variable {P : Engine → Prop}
  (hact : ∀ (inv : Invocation) (e f : Engine), P e → e.Act inv f → P f)

include hact

theorem Task.acts_keep {t : Task} {e f : Engine} (h : P e) (hacts : t.Acts e f) : P f := by
  cases hacts with
  | idle => exact h
  | acted _ hf => exact hact _ _ _ h hf

theorem Engine.run_acts_keep {e : Engine} (h : P e) (job : Job) (hops left : Nat) :
    P (e.run (job.run hops left)).2 :=
  Task.run_keeps (P := P) (J := fun _ => True) (fun _ _ _ _ _ => trivial)
    (fun _ _ _ _ _ he hacts => Task.acts_keep hact he hacts) hops ⟨e, left, job⟩ trivial h

theorem Engine.after_acts_keep {e : Engine} (h : P e) (jobs : List Job) : P (e.after jobs) :=
  after_induction (P := P) (fun _ job he => run_acts_keep hact he job hopLimit scriptLimit) h jobs

theorem Task.Leads.acts_keep {t u : Task} (hu : t.Leads u) (h : P t.engine) : P u.engine :=
  (hu.keeps (P := P) (J := fun _ => True) (fun _ _ _ _ _ => trivial)
    (fun _ _ _ _ _ he hacts => Task.acts_keep hact he hacts) trivial h).2

end Acts

section Maintains

/- A set of callables that has all scripts and keeps the property. -/
variable {C : Callable → Prop} {I : Download → Prop} (hscript : ∀ text, C (.script text))
  (hkeeps : ∀ callable, C callable → callable.Keeps I)

include hscript

theorem Engine.Maintains.act {e f : Engine} {inv : Invocation} (h : e.Maintains C I)
    (hamends : ∀ id g, inv.Amends id g → ∀ d, I d → I (g d)) (hact : e.Act inv f) :
    f.Maintains C I where
  commands := h.commands.edit hscript hact.edit
  downloads := by
    cases hact with
    | amended hinv hd => exact h.downloads.replace (hamends _ _ hinv _ (h.downloads.get? hd))
    | removed _ hremove => exact h.downloads.remove hremove
    | _ => exact h.downloads

include hkeeps

theorem Task.maintains_acts {t : Task} {e f : Engine} (ht : t.engine.Maintains C I)
    (h : e.Maintains C I) (hacts : t.Acts e f) : f.Maintains C I := by
  rcases hacts with _ | ⟨⟨hjob, haim⟩, hact⟩
  · exact h
  · obtain ⟨entry, hentry, hof⟩ := Engine.find?_of_aim haim
    have hcallable := hkeeps _ (ht.commands _ entry hentry)
    exact h.act hscript (fun id g hg => hcallable _ id g hof hg) hact

/-- **What the bound commands keep holds at every task that a job leads to.** -/
theorem Task.Leads.maintains {t u : Task} (hu : t.Leads u) (h : t.engine.Maintains C I) :
    u.engine.Maintains C I :=
  (hu.keeps (P := Engine.Maintains C I) (J := fun _ => True) (fun _ _ _ _ _ => trivial)
    (fun _ _ _ _ ht he hacts => maintains_acts hscript hkeeps ht he hacts) trivial h).2

theorem Engine.Maintains.run {e : Engine} (h : e.Maintains C I) (job : Job) (hops left : Nat) :
    (e.run (job.run hops left)).2.Maintains C I :=
  Task.run_keeps (P := Engine.Maintains C I) (J := fun _ => True) (fun _ _ _ _ _ => trivial)
    (fun _ _ _ _ ht he hacts => Task.maintains_acts hscript hkeeps ht he hacts) hops
    ⟨e, left, job⟩ trivial h

/-- **What the bound commands keep holds after any sequence of jobs.** -/
theorem Engine.Maintains.after {e : Engine} (h : e.Maintains C I) (jobs : List Job) :
    (e.after jobs).Maintains C I :=
  after_induction (P := Maintains C I)
    (fun _ job he => he.run hscript hkeeps job hopLimit scriptLimit) h jobs

end Maintains

end TorrentControl
