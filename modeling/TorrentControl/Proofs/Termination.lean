import Mathlib.Order.WellFounded
import TorrentControl.Proofs.Task

/-! # Which tasks end

Texts within arguments get lighter and scripts are counted, so a task can only go on for ever through
commands that call each other by key. This is proved as an equivalence: a task ends unless it leads
to a command that orders a command that orders a command, and so on, with no text and no script in
between. The registry makes such chains when a key that a command orders is bound to that command. -/

namespace TorrentControl

open Run

theorem Invocation.Orders.weight_le {inv : Invocation} {args params : Value} {key : String}
    {target : Target} (h : inv.Orders args key target params) : params.weight ≤ args.weight := by
  cases h <;> simp [Value.weight]

namespace Task

theorem Orders.size_le {t u : Task} (h : t.Orders u) :
    Smaller (size u.left u.job) (size t.left t.job) ∨ size u.left u.job = size t.left t.job := by
  obtain ⟨hleft, key, target, params, inv, args, hjob, ⟨ht, -⟩, horder⟩ := h.invokes
  rw [hleft, hjob, ht]
  simp only [size]
  rcases Nat.lt_or_eq_of_le horder.weight_le with hlt | heq
  · exact .inl (.right _ (by omega))
  · exact .inr (by rw [heq])

/-- From the task on, commands order commands without end. -/
def OrdersForever (t : Task) : Prop :=
  ∃ chain : ℕ → Task, chain 0 = t ∧ ∀ n, (chain n).Orders (chain (n + 1))

theorem acc_orders {t : Task} (h : ¬ t.OrdersForever) : Acc (fun u t => Orders t u) t := by
  by_contra hacc
  exact h (not_acc_iff_exists_descending_chain.1 hacc)

theorem acc_of_leads {t u : Task} (h : Acc (fun u t => Makes t u) t) (hu : t.Leads u) :
    Acc (fun u t => Makes t u) u := by
  induction hu with
  | refl => exact h
  | tail _ huv ih => exact ih.inv huv

/-- Tasks of one size are well founded if their orders are and everything smaller is. -/
theorem acc_of_acc_orders {t u : Task} (hu : t.Leads u) (horders : Acc (fun u t => Orders t u) u)
    (smaller : ∀ v, t.Leads v → Smaller (size v.left v.job) (size u.left u.job) →
      Acc (fun u t => Makes t u) v) : Acc (fun u t => Makes t u) u := by
  -- along the orders, which keep the size or lower it
  induction horders with
  | intro u _ ih =>
    refine ⟨u, fun v hv => ?_⟩
    have hleads : t.Leads v := hu.tail hv
    rcases hv with hv | hv
    · exact smaller v hleads hv.smaller
    · rcases hv.size_le with hlt | heq
      · exact smaller v hleads hlt
      · exact ih v hv hleads (heq ▸ smaller)

theorem not_ends_of_forever {t u : Task} (hu : t.Leads u) (h : u.OrdersForever) : ¬ t.Ends := by
  obtain ⟨chain, rfl, hchain⟩ := h
  intro hends
  have hacc := acc_of_leads (ends_iff_acc.1 hends) hu
  exact not_acc_iff_exists_descending_chain.2 ⟨chain, rfl, fun n => .inr (hchain n)⟩ hacc

theorem ends_of_not_forever {t : Task} (h : ∀ u, t.Leads u → ¬ u.OrdersForever) : t.Ends := by
  have all (u : Task) : t.Leads u → Acc (fun u t => Makes t u) u := by
    induction hsize : size u.left u.job using smaller_wf.induction generalizing u with
    | _ n ih =>
      intro hu
      exact acc_of_acc_orders hu (acc_orders (h u hu)) fun v hv hlt => ih _ (hsize ▸ hlt) v rfl hv
  exact ends_iff_acc.2 (all t .refl)

/-- **A task ends unless it leads to commands that order commands without end.** -/
theorem ends_iff_no_endless_orders (t : Task) :
    t.Ends ↔ ¬ ∃ u, t.Leads u ∧ u.OrdersForever := by
  constructor
  · rintro h ⟨u, hu, hforever⟩
    exact not_ends_of_forever hu hforever h
  · intro h
    exact ends_of_not_forever fun u hu hforever => h ⟨u, hu, hforever⟩

end Task

/-! ## Registries without such chains -/

/-- The commands that call others by key. -/
def Callable.ordersKeys : Callable → Bool
  | .download .tryStart | .download .tryStop | .download .tryClose | .download .deleteTied => true
  | .hosted _ (.forward _) => true
  | _ => false

def Callable.isHosted : Callable → Bool
  | .hosted _ _ => true
  | _ => false

/-- The keys that commands on a download call. -/
def orderedKeys : List String :=
  ["d.start", "d.stop", "d.close", "d.get_tied_to_file", "d.set_tied_to_file"]

/-- No key that a command orders is bound to a command that orders, and nothing forwards. -/
structure Registry.Plain (r : Registry) : Prop where
  unordered {key : String} {entry : CommandEntry} (hkey : key ∈ orderedKeys)
    (h : r.find? key = some entry) : entry.callable.ordersKeys = false
  unforwarded {key other : String} {entry : CommandEntry} {kind : TargetKind}
    (h : r.find? key = some entry) : entry.callable ≠ .hosted kind (.forward other)

theorem Invocation.Orders.callable {inv : Invocation} {args params : Value} {key : String}
    {target : Target} {callable : Callable} (h : inv.Orders args key target params)
    (hof : inv.Of callable) :
    callable.ordersKeys = true ∧
      (key ∈ orderedKeys ∨ ∃ kind, callable = .hosted kind (.forward key)) := by
  cases h with
  | forward key target =>
    obtain ⟨kind, rfl⟩ := hof
    exact ⟨rfl, .inr ⟨kind, rfl⟩⟩
  | _ =>
    cases hof
    exact ⟨rfl, .inl (by simp [orderedKeys])⟩

namespace Task

/-- A task that orders is a call of a command that does, and what it orders is a call, too. -/
theorem Orders.entry {t u : Task} (h : t.Orders u) :
    ∃ own on args entry key target params,
      t.job = .call own on args ∧ t.engine.commands.find? own = some entry ∧
        entry.callable.ordersKeys = true ∧ u.job = .call key target params ∧
          (key ∈ orderedKeys ∨ ∃ kind, entry.callable = .hosted kind (.forward key)) := by
  obtain ⟨-, key, target, params, inv, args, hjob, ⟨ht, haim⟩, horder⟩ := h.invokes
  obtain ⟨entry, hentry, hof⟩ := Engine.find?_of_aim haim
  obtain ⟨horders, hkey⟩ := horder.callable hof
  exact ⟨_, _, args, entry, key, target, params, ht, hentry, horders, hjob, hkey⟩

/-- **On plain registries every task ends.** -/
theorem ends_of_plain {t : Task} (h : ∀ u, t.Leads u → u.engine.commands.Plain) : t.Ends := by
  refine ends_of_not_forever ?_
  rintro _ hu ⟨chain, rfl, hchain⟩
  have hnext : t.Leads (chain 1) := hu.tail (.inr (hchain 0))
  obtain ⟨_, _, _, entry, key, _, _, _, hentry, _, hjob, hkey⟩ := (hchain 0).entry
  obtain ⟨_, _, _, next, _, _, _, hcall, hfound, horders, _, _⟩ := (hchain 1).entry
  cases hjob.symm.trans hcall
  rcases hkey with hkey | ⟨kind, hforward⟩
  · rw [(h _ hnext).unordered hkey hfound] at horders
    cases horders
  · exact (h _ hu).unforwarded hentry hforward

end Task

/-! ## Without aliases -/

/-- Only an alias can bind a key to a command that orders. -/
theorem Registry.Plain.edit {e t : Engine} {inv : Invocation} (h : e.commands.Plain)
    (hedit : e.Edit inv t) (hinv : inv ≠ .generic .aliasMethod) : t.commands.Plain := by
  refine ⟨fun hkey hentry => ?_, fun hentry => ?_⟩
  · rcases hedit.binds hentry with hold | ⟨-, script, hscript⟩ | ⟨halias, -⟩
    · exact h.unordered hkey hold
    · rw [hscript]
      rfl
    · exact (hinv halias).elim
  · rcases hedit.binds hentry with hold | ⟨-, script, hscript⟩ | ⟨halias, -⟩
    · exact h.unforwarded hold
    · rw [hscript]
      nofun
    · exact (hinv halias).elim

theorem Builtin.not_hosted {b : Builtin} (hb : b ∈ all) : b.callable.isHosted = false := by
  have table : ∀ b ∈ all, b.callable.isHosted = false := by
    set_option maxRecDepth 4096 in decide
  exact table b hb

theorem Registry.builtin_plain : builtin.Plain where
  unordered hkey h := by
    obtain ⟨b, hb, rfl, hcallable, -⟩ := find?_builtin h
    have table : ∀ b ∈ Builtin.all, b.callable.ordersKeys = true → b.key ∉ orderedKeys := by
      set_option maxRecDepth 4096 in decide
    rw [hcallable]
    exact Bool.eq_false_iff.2 fun horders => table b hb horders hkey
  unforwarded h := by
    obtain ⟨b, hb, rfl, hcallable, -⟩ := find?_builtin h
    intro hforward
    have := Builtin.not_hosted hb
    rw [← hcallable, hforward] at this
    cases this

/-- **Where no alias is made, every task ends**, whatever scripts are registered and erased. -/
theorem Task.ends_of_no_alias {t : Task} (h : t.engine.commands.Plain)
    (halias : ∀ u, t.Leads u → ∀ args, ¬ u.Invokes (.generic .aliasMethod) args) : t.Ends := by
  refine ends_of_plain fun u hu => ?_
  refine (Leads.keeps (P := fun e => e.commands.Plain) (J := t.Leads) ?_ ?_ hu .refl h).2
  · exact fun v w hv _ hw => hv.tail hw
  · rintro v e f hv - he (_ | ⟨hinv, hact⟩)
    · exact he
    · refine he.edit hact.edit ?_
      rintro rfl
      exact halias v hv _ hinv

/-! ## A start that starts itself -/

namespace Task

/-- Trying to start a download that takes commands orders its start. -/
theorem orders_start {t : Task} {id : DownloadId} {d : Download} {args : Value}
    (h : t.Invokes (.download .tryStart id) args) (hd : t.engine.session.get? id = some d)
    (hhash : d.hasHashFailed = false) (hignores : d.ignoresCommands = .ok false) :
    t.Orders ⟨t.engine, t.left, .call "d.start" (.download id) .empty⟩ := by
  refine ⟨"d.start", .download id, .empty, rfl, ?_⟩
  have hdownload : t.engine.run (Run.download id) = (.ok d, t.engine) := by
    rw [Engine.run_download, Session.download, hd]
    rfl
  have hlift : t.engine.run (Run.lift d.ignoresCommands) = (.ok false, t.engine) := by
    rw [hignores]
    rfl
  rw [Sends, plan_of_invokes h]
  simp only [Invocation.sendings, Invocation.plan, DownloadCommand.plan, Plan.lift_eq,
    Plan.act_bind, Plan.answer_bind, Plan.rename, Plan.Reaches]
  refine ⟨d, t.engine, hdownload, ?_⟩
  rw [if_neg (by simp [hhash])]
  exact ⟨false, t.engine, hlift, .inl ⟨rfl, rfl⟩⟩

/-- Where `d.start` is bound to the command that tries to start, starting never ends. -/
theorem start_forever {e : Engine} {left : Nat} {id : DownloadId} {d : Download}
    {entry : CommandEntry} (hentry : e.commands.find? "d.start" = some entry)
    (hcallable : entry.callable = .download .tryStart) (hd : e.session.get? id = some d)
    (hhash : d.hasHashFailed = false) (hignores : d.ignoresCommands = .ok false) :
    OrdersForever ⟨e, left, .call "d.start" (.download id) .empty⟩ := by
  have haim : e.aim "d.start" (.download id) = .ok (.download .tryStart id) := by
    simp only [Engine.aim, hentry, hcallable]
    rfl
  exact ⟨fun _ => ⟨e, left, .call "d.start" (.download id) .empty⟩, rfl,
    fun _ => orders_start (.call rfl haim) hd hhash hignores⟩

/-- A call that comes to an invocation runs its plan. -/
theorem call_of_aim {e : Engine} {key : String} {target : Target} {args : Value} {inv : Invocation}
    (h : e.aim key target = .ok inv) : e.call key target args =
      e.run ((inv.sendings scriptLimit args).run (Sending.run hopLimit)) := by
  have hinv : Invokes ⟨e, scriptLimit, .call key target args⟩ inv args := .call rfl h
  rw [← plan_of_invokes hinv]
  exact run_eq ⟨e, scriptLimit, .call key target args⟩ hopLimit

theorem call_erase {e : Engine} {entry : CommandEntry} (key : String)
    (hentry : e.commands.find? "method.erase" = some entry)
    (hcallable : entry.callable = .generic .eraseMethod) :
    e.call "method.erase" .generic (.text key) =
      (.ok (.ofBool (e.commands.erase key).1), { e with commands := (e.commands.erase key).2 }) := by
  have haim : e.aim "method.erase" .generic = .ok (.generic .eraseMethod) :=
    Engine.aim_generic hentry hcallable
  rw [call_of_aim haim]
  rfl

theorem call_alias {e : Engine} {entry : CommandEntry} {key source : String} {commands : Registry}
    (hentry : e.commands.find? "method.alias" = some entry)
    (hcallable : entry.callable = .generic .aliasMethod)
    (h : e.commands.insertAlias key true source = .ok commands) :
    e.call "method.alias" .generic (.list [.text key, .text source]) =
      (.ok .empty, { e with commands }) := by
  have haim : e.aim "method.alias" .generic = .ok (.generic .aliasMethod) :=
    Engine.aim_generic hentry hcallable
  have hrun :
      e.run (aliasMethod (.list [.text key, .text source])) = (.ok (), { e with commands }) := by
    change e.run (Run.register fun r => r.insertAlias key true source) = _
    rw [Run.register, Engine.run_bind_ok e (Engine.run_get e), h]
    rfl
  rw [call_of_aim haim]
  simp only [Invocation.sendings, Invocation.plan, GenericCommand.plan, Plan.lift_eq, Plan.act_bind,
    Plan.answer_bind, Plan.rename, Plan.run]
  rw [Engine.run_bind_ok e hrun]
  rfl

/-- Two calls bind a key to the callable of another one. -/
theorem exists_rebound {e : Engine} {key source : String} (hkey : key ≠ source)
    (halias : key ≠ "method.alias")
    (heraser : ∃ entry, e.commands.find? "method.erase" = some entry ∧
      entry.callable = .generic .eraseMethod)
    (haliaser : ∃ entry, e.commands.find? "method.alias" = some entry ∧
      entry.callable = .generic .aliasMethod)
    {original : CommandEntry} (hsource : e.commands.find? source = some original) :
    ∃ commands, ((e.call "method.erase" .generic (.text key)).2.call "method.alias" .generic
        (.list [.text key, .text source])).2 = { e with commands } ∧
      (∃ entry, commands.find? key = some entry ∧ entry.callable = original.callable) ∧
        commands.find? source = some original := by
  obtain ⟨eraser, heraser, hcallable⟩ := heraser
  obtain ⟨aliaser, haliaser, hcallable'⟩ := haliaser
  let erased := (e.commands.erase key).2
  have hkept (other : String) (h : key ≠ other) : erased.find? other = e.commands.find? other := by
    rw [Registry.find?_erase, if_neg h]
  have hfree : erased.find? key = none := by
    rw [Registry.find?_erase, if_pos rfl]
  obtain ⟨commands, hinsert⟩ := Registry.insertEntry_of_free hfree
    { original with flags := { original.flags with isShared := true, ownsKey := true } }
  have hinsertAlias : erased.insertAlias key true source = .ok commands := by
    rw [Registry.insertAlias, hkept source hkey, hsource]
    exact hinsert
  have hbound := Registry.find?_insertEntry hinsert key
  rw [if_pos rfl] at hbound
  refine ⟨commands, ?_, ⟨_, hbound, rfl⟩, ?_⟩
  · rw [call_erase key heraser hcallable,
      call_alias ((hkept _ halias).trans haliaser) hcallable' hinsertAlias]
  · rw [Registry.find?_insertEntry hinsert, if_neg hkey, hkept source hkey, hsource]

end Task

/-- A session with one fresh download. -/
def Session.sample : Session :=
  (Session.empty.insert (.fresh "a" .zero)).2

theorem Session.ids_sample : sample.ids = [⟨0, 0⟩] :=
  rfl

/-- An engine with the built-in commands and one fresh download. -/
def Engine.sample : Engine :=
  { Engine.bare Session.sample .empty with commands := Registry.builtin }

theorem Engine.sample_bound (key : String) (callable : Callable)
    (h : ∃ b ∈ Builtin.all, b.key = key ∧ b.callable = callable) :
    ∃ entry, sample.commands.find? key = some entry ∧ entry.callable = callable := by
  simp only [sample]
  exact Registry.exists_find?_builtin h

/-- **A call that never ends.** Two calls replace the start command by an alias of the command that
tries to start, and trying to start then calls itself. -/
theorem Engine.rebound_start_never_ends :
    ¬ Task.Ends ⟨((Engine.sample.call "method.erase" .generic (.text "d.start")).2.call
        "method.alias" .generic (.list [.text "d.start", .text "d.try_start"])).2,
      scriptLimit, .call "d.try_start" (.download ⟨0, 0⟩) .empty⟩ := by
  have heraser := sample_bound "method.erase" (.generic .eraseMethod)
    ⟨.published _ _ "i:s", by decide +kernel, rfl, rfl⟩
  have haliaser := sample_bound "method.alias" (.generic .aliasMethod)
    ⟨.published _ _ "i:ss", by decide +kernel, rfl, rfl⟩
  obtain ⟨original, hsource, horiginal⟩ := sample_bound "d.try_start" (.download .tryStart)
    ⟨.order _ _, by decide +kernel, rfl, rfl⟩
  obtain ⟨commands, hrebound, ⟨start, hstart, hcallable⟩, htry⟩ :=
    Task.exists_rebound (show "d.start" ≠ "d.try_start" by decide) (by decide) heraser haliaser
      hsource
  have hd : Engine.sample.session.get? ⟨0, 0⟩ = some (.fresh "a" .zero) := by decide +kernel
  have hignores : (Download.fresh "a" .zero).ignoresCommands = .ok false := by decide +kernel
  have haim : Engine.aim { Engine.sample with commands } "d.try_start" (.download ⟨0, 0⟩) =
      .ok (.download .tryStart ⟨0, 0⟩) := by
    simp only [Engine.aim, htry, horiginal]
    rfl
  rw [hrebound]
  exact Task.not_ends_of_forever
    (.single (.inr (Task.orders_start (.call rfl haim) hd rfl hignores)))
    (Task.start_forever hstart (hcallable.trans horiginal) hd rfl hignores)

end TorrentControl
