import Mathlib.Data.List.ProdSigma
import TorrentControl.Proofs.OneStatement
import TorrentControl.Proofs.Serving

/-! # Multicalls

A multicall executes the command texts of its columns against the entities of a collection. The
entities are those that are there when the call begins, whatever the cells do to them. The cells are
executed one after the other, row by row, up to the first one that fails. Its error is then the
answer of the call; what the cells before it did, and what it did itself, is not taken back. -/

namespace TorrentControl

/-! ## Cells -/

/-- A column to be executed against an entity. -/
abbrev Cell := Target × Value

namespace Engine

/-- Executes a cell. A column that is not a command text is an error. -/
def runCell (e : Engine) (hops left : Nat) (cell : Cell) : Except Halt Value × Engine :=
  match cell.2 with
  | .text text => e.run ((Job.execute cell.1 text).run hops left)
  | column => (.error (.failed (.value (column.mismatch .text))), e)

/-- The cells are executed one after the other and answer the values. -/
inductive Executes (hops left : Nat) : Engine → List Cell → List Value → Engine → Prop where
  | nil (e : Engine) : Executes hops left e [] [] e
  | cons {e t f : Engine} {cell : Cell} {cells : List Cell} {v : Value} {values : List Value}
      (hcell : e.runCell hops left cell = (.ok v, t)) (h : Executes hops left t cells values f) :
      Executes hops left e (cell :: cells) (v :: values) f

/-- The cells are executed one after the other up to one that fails. -/
def Stops (hops left : Nat) (e : Engine) (cells : List Cell) (h : Halt) (f : Engine) : Prop :=
  ∃ before cell after values t, cells = before ++ cell :: after ∧
    Executes hops left e before values t ∧ t.runCell hops left cell = (.error h, f)

variable {hops left : Nat} {e t f : Engine} {cells later : List Cell} {values others : List Value}
  {h : Halt}

theorem Executes.append (hcells : Executes hops left e cells values t)
    (hlater : Executes hops left t later others f) :
    Executes hops left e (cells ++ later) (values ++ others) f := by
  induction hcells with
  | nil => exact hlater
  | cons hcell _ ih => exact .cons hcell (ih hlater)

theorem Executes.stops (hcells : Executes hops left e cells values t)
    (hlater : Stops hops left t later h f) : Stops hops left e (cells ++ later) h f := by
  obtain ⟨before, cell, after, others, u, rfl, hbefore, hcell⟩ := hlater
  exact ⟨cells ++ before, cell, after, values ++ others, u, (List.append_assoc ..).symm,
    hcells.append hbefore, hcell⟩

theorem Stops.append (hcells : Stops hops left e cells h f) (later : List Cell) :
    Stops hops left e (cells ++ later) h f := by
  obtain ⟨before, cell, after, values, t, rfl, hbefore, hcell⟩ := hcells
  exact ⟨before, cell, after ++ later, values, t, by simp, hbefore, hcell⟩

theorem Executes.length_eq (hcells : Executes hops left e cells values f) :
    values.length = cells.length := by
  induction hcells with
  | nil => rfl
  | cons _ _ ih => exact congrArg (· + 1) ih

/-- Cells stop at the first one, or behind it. -/
theorem stops_cons_iff {cell : Cell} : Stops hops left e (cell :: cells) h f ↔
    e.runCell hops left cell = (.error h, f) ∨
      ∃ v t, e.runCell hops left cell = (.ok v, t) ∧ Stops hops left t cells h f := by
  constructor
  · rintro ⟨before, stopped, after, values, t, hsplit, hbefore, hstopped⟩
    rcases List.cons_eq_append_iff.1 hsplit with ⟨rfl, hcells⟩ | ⟨rest, rfl, rfl⟩
    · cases hcells
      cases hbefore
      exact .inl hstopped
    · cases hbefore with
      | cons hcell hrest => exact .inr ⟨_, _, hcell, rest, stopped, after, _, t, rfl, hrest, hstopped⟩
  · rintro (hcell | ⟨v, t, hcell, hstops⟩)
    · exact ⟨[], cell, cells, [], e, rfl, .nil e, hcell⟩
    · exact (Executes.cons hcell (.nil t)).stops hstops

section Keeps

/- What each cell keeps, whether it fails or not. -/
variable {P : Engine → Prop} (hP : ∀ cell ∈ cells, ∀ e, P e → P (e.runCell hops left cell).2)

include hP

theorem Executes.keeps (hcells : Executes hops left e cells values f) (he : P e) : P f := by
  induction hcells with
  | nil => exact he
  | @cons e t f cell cells v values hcell _ ih =>
    have ht := hP cell (.head _) e he
    rw [hcell] at ht
    exact ih (fun other hother => hP other (.tail _ hother)) ht

theorem Stops.keeps (hcells : Stops hops left e cells h f) (he : P e) : P f := by
  obtain ⟨before, cell, after, values, t, rfl, hbefore, hcell⟩ := hcells
  have ht : P t := hbefore.keeps (fun other hother => hP other (List.mem_append_left _ hother)) he
  have hf := hP cell (by simp) t ht
  rwa [hcell] at hf

end Keeps

end Engine

/-! ## Runs that execute cells -/

/-- So many rows of so many values. -/
structure Table (height width : Nat) (rows : List (List Value)) : Prop where
  length_eq : rows.length = height
  width_eq : ∀ row ∈ rows, row.length = width

theorem table_of_forall₂ {width : Nat} {rows : List (List Value)} {answers : List Value}
    (h : List.Forall₂ (fun row v => v = .list row ∧ row.length = width) rows answers) :
    answers = rows.map .list ∧ Table rows.length width rows := by
  induction h with
  | nil => exact ⟨rfl, rfl, nofun⟩
  | cons hrow _ ih =>
    obtain ⟨rfl, hrest⟩ := ih
    exact ⟨by rw [hrow.1]; rfl, rfl, List.forall_mem_cons.2 ⟨hrow.2, hrest.width_eq⟩⟩

namespace Run

open TorrentControl.Task (errandRun)

variable {α β : Type} {hops left : Nat}

/-- The action executes the cells. If none fails, its answer is made of their values. -/
def Executing (hops left : Nat) (cells : List Cell) (made : List Value → β → Prop) (m : Run β) :
    Prop :=
  ∀ e : Engine,
    (∃ values b t, e.run m = (.ok b, t) ∧ Engine.Executes hops left e cells values t ∧
      made values b) ∨
    ∃ h t, e.run m = (.error h, t) ∧ Engine.Stops hops left e cells h t

variable {R : Type} {perform : R → Run Value}

/-- Where each item executes cells of its own, the list executes them one item after the other. -/
theorem executing_mapM {made : List Value → β → Prop} (cells : α → List Cell) {f : α → Plan R β}
    (l : List α) (hf : ∀ a ∈ l, Executing hops left (cells a) made ((f a).run perform)) :
    Executing hops left (l.flatMap cells)
      (fun values bs => ∃ parts : List (List Value), parts.flatten = values ∧
        parts.length = l.length ∧ List.Forall₂ made parts bs)
      ((l.mapM f).run perform) := by
  induction l with
  | nil => exact fun e => .inl ⟨[], [], e, rfl, .nil e, [], rfl, rfl, .nil⟩
  | cons a l ih =>
    intro e
    rw [List.mapM_cons, Plan.run_bind, List.flatMap_cons]
    rcases hf a (.head _) e with ⟨values, b, t, hrun, hcells, hmade⟩ | ⟨h, t, hrun, hstops⟩
    · rw [Engine.run_bind_ok e hrun, Plan.run_bind]
      rcases ih (fun c hc => hf c (.tail _ hc)) t with
        ⟨others, bs, u, hrest, hlater, parts, rfl, hlength, hparts⟩ | ⟨h, u, hrest, hstops⟩
      · refine .inl ⟨values ++ parts.flatten, b :: bs, u, ?_, hcells.append hlater,
          values :: parts, rfl, congrArg (· + 1) hlength, .cons hmade hparts⟩
        rw [Engine.run_bind_ok t hrest]
        rfl
      · exact .inr ⟨h, u, Engine.run_bind_error t hrest, hcells.stops hstops⟩
    · exact .inr ⟨h, t, Engine.run_bind_error e hrun, hstops.append _⟩

variable {args : Value}

theorem executing_column (hops left : Nat) (target : Target) (column : Value)
    (h : ∀ text, column = .text text → args.Says text) :
    Executing hops left [(target, column)] (fun values v => values = [v])
      ((do Plan.request (.text target (← Run.lift (InnerText.ofValue column h))) :
        Plan (Errand args) Value).run (errandRun hops left)) := by
  intro e
  have hcell : e.run ((do Plan.request (.text target (← Run.lift (InnerText.ofValue column h))) :
      Plan (Errand args) Value).run (errandRun hops left)) =
        e.runCell hops left (target, column) := by
    cases column with
    | text text =>
      change e.run (Run.lift (.ok _) >>= fun inner => (Plan.request _).run _) = _
      rw [Engine.run_bind_ok e (Engine.run_lift e _), Plan.run_request]
      rfl
    | _ => rfl
  rw [hcell]
  rcases hrun : e.runCell hops left (target, column) with ⟨h | v, t⟩
  · exact .inr ⟨h, t, rfl, [], _, [], [], e, rfl, .nil e, hrun⟩
  · exact .inl ⟨[v], v, t, rfl, .cons hrun (.nil t), rfl⟩

/-- An answer may be put in another form afterwards. -/
theorem Executing.bind_pure {γ : Type} {cells : List Cell} {made : List Value → β → Prop}
    {made' : List Value → γ → Prop} {m : Run β} (h : Executing hops left cells made m) {g : β → γ}
    (hmade : ∀ values b, values.length = cells.length → made values b → made' values (g b)) :
    Executing hops left cells made' (m >>= fun b => pure (g b)) := by
  intro e
  rcases h e with ⟨values, b, t, hrun, hcells, hb⟩ | ⟨h, t, hrun, hstops⟩
  · exact .inl ⟨values, g b, t, Engine.run_bind_ok e hrun, hcells,
      hmade values b hcells.length_eq hb⟩
  · exact .inr ⟨h, t, Engine.run_bind_error e hrun, hstops⟩

theorem flatten_singles {parts : List (List Value)} {values : List Value}
    (h : List.Forall₂ (fun part v => part = [v]) parts values) : parts.flatten = values := by
  induction h with
  | nil => rfl
  | cons hpart _ ih => rw [List.flatten_cons, hpart, ih, List.singleton_append]

theorem executing_row (hops left : Nat) (target : Target) (columns : List Value)
    (h : ∀ column ∈ columns, ∀ text, column = .text text → args.Says text) :
    Executing hops left (columns.map (Prod.mk target))
      (fun values row => row = .list values ∧ values.length = columns.length)
      ((do
        let cells ← (columns.attach.map fun column =>
          InnerText.ofValue column.val (h column.val column.property)).mapM fun column => do
            Plan.request (.text target (← Run.lift column))
        return Value.list cells : Plan (Errand args) Value).run (errandRun hops left)) := by
  have hcells := executing_mapM (fun column => [(target, column.val)]) columns.attach
    fun column _ => executing_column hops left target column.val (h column.val column.property)
  have hflat : (columns.attach.flatMap fun column => [(target, column.val)]) =
      columns.map (Prod.mk target) := by
    rw [← List.map_eq_flatMap, List.attach_map_val]
  rw [hflat] at hcells
  rw [Plan.run_bind, List.mapM_map]
  refine hcells.bind_pure fun values cells hlength ⟨parts, hparts, _, hsingle⟩ => ?_
  rw [← hparts, flatten_singles hsingle] at hlength ⊢
  exact ⟨rfl, by simpa using hlength⟩

theorem run_lift_ok (a : α) (f : α → Plan R β) :
    ((liftM (lift (.ok a)) : Plan R α) >>= f).run perform = (f a).run perform :=
  pure_bind a fun a => (f a).run perform

/-- **A multicall executes the columns against the entities in row-major order, and answers their
values in rows.** -/
theorem executing_multicall (entities : List Target) (reserved column : Value)
    (columns : List Value) :
    Executing hops left (entities ×ˢ (column :: columns))
      (fun values v => ∃ rows, v = .list (rows.map .list) ∧ rows.flatten = values ∧
        Table entities.length (columns.length + 1) rows)
      ((multicall entities : Plan (Errand (.list (reserved :: column :: columns))) Value).run
        (errandRun hops left)) := by
  have hsaid : ∀ c ∈ column :: columns, ∀ text, c = .text text →
      (Value.list (reserved :: column :: columns)).Says text :=
    fun c hc text h => List.mem_cons_of_mem reserved (h ▸ hc)
  have hrows := executing_mapM (fun target => (column :: columns).map (Prod.mk target)) entities
    fun target _ => executing_row hops left target (column :: columns) hsaid
  simp only [multicall, multicallColumns]
  rw [run_lift_ok, Plan.run_bind]
  refine hrows.bind_pure fun values answers _ ⟨rows, hflat, hlength, hrows⟩ => ?_
  obtain ⟨hanswers, htable⟩ := table_of_forall₂ hrows
  exact ⟨rows, congrArg _ hanswers, hflat, hlength ▸ htable⟩

end Run

/-! ## Calls -/

/-- What stands behind the first item of a list, which is reserved. -/
def Value.columns : Value → List Value
  | .list (_ :: columns) => columns
  | _ => []

theorem Value.exists_of_columns {args : Value} (h : args.columns ≠ []) :
    ∃ reserved column columns, args = .list (reserved :: column :: columns) := by
  cases args with
  | list items =>
    match items, h with
    | reserved :: column :: columns, _ => exact ⟨reserved, column, columns, rfl⟩
    | [], h | [_], h => exact (h rfl).elim
  | _ => exact (h rfl).elim

/-- The error of arguments without columns. -/
def Value.lacksColumns : Value → CommandError
  | .list _ => .tooFewArguments
  | v => .value (v.mismatch .list)

/-- What a multicall goes through. -/
inductive Collection where
  | downloads
  | parts (part : Part)

namespace Collection

def command : Collection → Callable
  | .downloads => .generic .multicall
  | .parts part => .download (.multicall part)

/-- The downloads in their order, or the parts of the download that is the target. -/
def entities (s : Session) (target : Target) : Collection → Option (List Target)
  | .downloads => some (s.ids.map .download)
  | .parts part =>
    match target with
    | .entity (.download id) => (s.get? id).map (part.targets id)
    | _ => none

end Collection

open Run TorrentControl.Task

theorem multicall_refused {args : Value} (h : args.columns = []) (entities : List Target)
    (e : Engine) (hops left : Nat) :
    e.run ((multicall entities : Plan (Errand args) Value).run (errandRun hops left)) =
      (.error (.failed args.lacksColumns), e) := by
  have hcolumns : multicallColumns args = .error args.lacksColumns := by
    cases args with
    | list items =>
      match items, h with
      | [], _ | [_], _ => rfl
    | _ => rfl
  rw [multicall, hcolumns]
  rfl

namespace Engine

section Call

variable {e : Engine} {c : Collection} {key : String} {entry : CommandEntry}
  (hentry : e.commands.find? key = some entry) (hcallable : entry.callable = c.command)
  (target : Target) (args : Value) (hops left : Nat)

include hentry hcallable

/-- A multicall on a target without a collection fails and changes nothing. -/
theorem run_multicall_lost (hlost : c.entities e.session target = none) :
    ∃ error, e.run ((Job.call key target args).run hops left) = (.error (.failed error), e) := by
  rcases aim_cases hentry target with ⟨inv, hreceives, haim⟩ | ⟨error, haim⟩
  · rw [hcallable] at hreceives
    cases c with
    | downloads => cases hlost
    | parts part =>
      rw [Collection.command] at hreceives
      cases hreceives with
      | @download _ id htarget =>
        subst htarget
        have hstale : e.session.get? id = none := Option.map_eq_none_iff.1 hlost
        refine ⟨.stale (.download id), ?_⟩
        rw [run_call_of_aim haim]
        exact run_bind_error e (run_download_stale hstale)
  · exact ⟨error, run_call_refused haim args hops left⟩

/-- A multicall runs its plan on the entities. -/
theorem run_multicall {entities : List Target} (h : c.entities e.session target = some entities) :
    e.run ((Job.call key target args).run hops left) =
      e.run ((multicall entities : Plan (Errand args) Value).run (errandRun hops left)) := by
  cases c with
  | downloads =>
    cases h
    have haim : e.aim key target = .ok (.generic .multicall) :=
      aim_of_receives hentry (hcallable ▸ .generic)
    rw [run_call_of_aim haim]
    exact run_bind_ok e (run_session e)
  | parts part =>
    simp only [Collection.entities] at h
    split at h
    · rename_i id
      obtain ⟨d, hd, rfl⟩ := Option.map_eq_some_iff.1 h
      have haim : e.aim key (.entity (.download id)) = .ok (.download (.multicall part) id) :=
        aim_of_receives hentry (hcallable ▸ .download rfl)
      rw [run_call_of_aim haim]
      exact run_bind_ok e (run_download_of_get? hd)
    · cases h

end Call

/-- **A multicall executes its columns against the entities that were there when it began**, row by
row. It answers a table of what the cells answer, or stops at the first cell that fails. Without
columns it fails before it executes anything. -/
theorem multicall_executes_cells {e : Engine} {c : Collection} {key : String} {entry : CommandEntry}
    (hentry : e.commands.find? key = some entry) (hcallable : entry.callable = c.command)
    {target : Target} {entities : List Target}
    (hentities : c.entities e.session target = some entities) (args : Value) (hops left : Nat) :
    let outcome := e.run ((Job.call key target args).run hops left)
    (args.columns ≠ [] →
      (∃ rows f, outcome = (.ok (.list (rows.map .list)), f) ∧
        Executes hops left e (entities ×ˢ args.columns) rows.flatten f ∧
        Table entities.length args.columns.length rows) ∨
      ∃ h f, outcome = (.error h, f) ∧ Stops hops left e (entities ×ˢ args.columns) h f) ∧
    (args.columns = [] → outcome = (.error (.failed args.lacksColumns), e)) := by
  intro outcome
  have houtcome : outcome = _ := run_multicall hentry hcallable target args hops left hentities
  rw [houtcome]
  refine ⟨fun hcolumns => ?_, fun hcolumns => multicall_refused hcolumns entities e hops left⟩
  obtain ⟨reserved, column, columns, rfl⟩ := Value.exists_of_columns hcolumns
  rcases executing_multicall entities reserved column columns e with
    ⟨_, v, f, hrun, hcells, rows, rfl, rfl, htable⟩ | hstops
  · exact .inl ⟨rows, f, hrun, hcells, htable⟩
  · exact .inr hstops

theorem sample_multicall : ∃ entry, sample.commands.find? "d.multicall" = some entry ∧
    entry.callable = Collection.downloads.command :=
  sample_bound _ _ ⟨_, Builtin.multicall_mem, rfl, rfl⟩

/-- Every download is printed at and then removed. -/
theorem multicall_executes_erasures : ∃ entry,
    sample.commands.find? "d.multicall" = some entry ∧
      entry.callable = Collection.downloads.command ∧
      Collection.downloads.entities sample.session .generic = some [.download ⟨0, 0⟩] ∧
      let args := Value.list [.text "", .text "print=hi", .text "d.erase"]
      let outcome := sample.run ((Job.call "d.multicall" .generic args).run hopLimit scriptLimit)
      (∃ rows f, outcome = (.ok (.list (rows.map .list)), f) ∧
        Executes hopLimit scriptLimit sample ([.download ⟨0, 0⟩] ×ˢ args.columns) rows.flatten f ∧
        Table 1 2 rows) ∨
      ∃ h f, outcome = (.error h, f) ∧
        Stops hopLimit scriptLimit sample ([.download ⟨0, 0⟩] ×ˢ args.columns) h f := by
  obtain ⟨entry, hentry, hcallable⟩ := sample_multicall
  have hentities : Collection.downloads.entities sample.session .generic =
      some [.download ⟨0, 0⟩] :=
    show some (Session.sample.ids.map Target.download) = _ by rw [Session.ids_sample]; rfl
  exact ⟨entry, hentry, hcallable, hentities,
    (multicall_executes_cells hentry hcallable hentities _ hopLimit scriptLimit).1 nofun⟩

/-! ### A cell that fails -/

/-- The second column names no command. -/
def interrupted : Value :=
  .list [.text "", .text "print=hi", .text "x.missing"]

/-- The first column is executed, and the second one stops the call. -/
theorem run_interrupted {e : Engine} {entry : CommandEntry} {id : DownloadId}
    (hentry : e.commands.find? "d.multicall" = some entry)
    (hcallable : entry.callable = Collection.downloads.command)
    (hprint : e.aim "print" (.download id) = .ok (.generic .print))
    (hmissing : e.commands.find? "x.missing" = none) (hids : e.session.ids = [id])
    (hops left : Nat) :
    e.run ((Job.call "d.multicall" .generic interrupted).run hops left) =
      (.error (.failed (.unknownCommand "x.missing")),
        { e with messages := e.messages.push "hi" }) := by
  have hfirst : e.runCell hops left (.download id, .text "print=hi") = _ :=
    Task.run_printing (Statement.parse_printing ⟨['h', 'i'], List.all_eq_true.1 rfl, .cons rfl⟩
      ⟨'h', by decide, by decide⟩) hprint hops left
  have hsecond (t : Engine) (ht : t.commands = e.commands) :
      t.runCell hops left (.download id, .text "x.missing") =
        (.error (.failed (.unknownCommand "x.missing")), t) := by
    have hunknown : t.aim "x.missing" (.download id) = .error (.unknownCommand "x.missing") := by
      simp only [aim, ht, hmissing]
    have hparse : Statement.parse "x.missing" = .ok ⟨"x.missing", .empty⟩ := rfl
    exact (run_execute hparse t _ hops left).trans (run_call_refused hunknown _ hops left)
  have hentities : Collection.downloads.entities e.session .generic = some [.download id] := by
    rw [Collection.entities, hids]
    rfl
  rw [run_multicall hentry hcallable _ _ hops left hentities]
  rcases executing_multicall [.download id] (.text "") (.text "print=hi") [.text "x.missing"] e with
    ⟨values, v, f, -, hcells, -⟩ | ⟨h, f, hrun, hstops⟩
  · -- the second cell answers nothing
    cases hcells with
    | cons hcell hrest =>
      cases hcell.symm.trans hfirst
      cases hrest with
      | cons hcell _ => cases hcell.symm.trans (hsecond _ rfl)
  · rcases stops_cons_iff.1 hstops with hcell | ⟨v, t, hcell, hrest⟩
    · cases hcell.symm.trans hfirst
    · cases hcell.symm.trans hfirst
      rcases stops_cons_iff.1 hrest with hcell | ⟨v, t, hcell, -⟩
      · cases hcell.symm.trans (hsecond _ rfl)
        exact hrun
      · cases hcell.symm.trans (hsecond _ rfl)

theorem sample_unbound {key : String} (h : ∀ b ∈ Builtin.all, b.key ≠ key) :
    sample.commands.find? key = none := by
  refine Option.eq_none_iff_forall_ne_some.2 fun entry hentry => ?_
  simp only [sample] at hentry
  obtain ⟨b, hb, hkey, -⟩ := Registry.find?_builtin hentry
  exact h b hb hkey

theorem sample_interrupted : ∃ entry, sample.commands.find? "d.multicall" = some entry ∧
    entry.callable = Collection.downloads.command ∧
    sample.run ((Job.call "d.multicall" .generic interrupted).run hopLimit scriptLimit) =
      (.error (.failed (.unknownCommand "x.missing")),
        { sample with messages := sample.messages.push "hi" }) := by
  obtain ⟨entry, hentry, hcallable⟩ := sample_multicall
  obtain ⟨printer, hprinter, hprints⟩ := sample_bound "print" (.generic .print)
    ⟨_, Builtin.print_mem, rfl, rfl⟩
  exact ⟨entry, hentry, hcallable, run_interrupted hentry hcallable
    (aim_of_receives hprinter (hprints ▸ .generic)) (sample_unbound (by decide +kernel))
    Session.ids_sample hopLimit scriptLimit⟩

/-- **A multicall that fails was refused and changed nothing, or it leaves what its cells made of the
engine**, up to and with the first one that fails. So it leaves whatever each cell leaves. -/
theorem multicall_error_leaves_cells {e f : Engine} {c : Collection} {key : String}
    {entry : CommandEntry} (hentry : e.commands.find? key = some entry)
    (hcallable : entry.callable = c.command) (target : Target) (args : Value) (hops left : Nat)
    {h : Halt} (herror : e.run ((Job.call key target args).run hops left) = (.error h, f)) :
    ((c.entities e.session target = none ∨ args.columns = []) ∧ f = e) ∨
      ∃ entities, c.entities e.session target = some entities ∧
        Stops hops left e (entities ×ˢ args.columns) h f ∧
        ∀ P : Engine → Prop, (∀ cell ∈ entities ×ˢ args.columns, ∀ t, P t →
          P (t.runCell hops left cell).2) → P e → P f := by
  cases hentities : c.entities e.session target with
  | none =>
    obtain ⟨error, hlost⟩ := run_multicall_lost hentry hcallable target args hops left hentities
    cases herror.symm.trans hlost
    exact .inl ⟨.inl rfl, rfl⟩
  | some entities =>
    rw [run_multicall hentry hcallable target args hops left hentities] at herror
    by_cases hcolumns : args.columns = []
    · cases herror.symm.trans (multicall_refused hcolumns entities e hops left)
      exact .inl ⟨.inr hcolumns, rfl⟩
    · obtain ⟨reserved, column, columns, rfl⟩ := Value.exists_of_columns hcolumns
      rcases executing_multicall entities reserved column columns e with
        ⟨_, v, t, hrun, -⟩ | ⟨h, t, hrun, hstops⟩
      · cases herror.symm.trans hrun
      · cases herror.symm.trans hrun
        exact .inr ⟨entities, rfl, hstops, fun P hP he => hstops.keeps hP he⟩

theorem multicall_error_leaves_print : ∃ entry,
    sample.commands.find? "d.multicall" = some entry ∧
      entry.callable = Collection.downloads.command ∧
      let f := { sample with messages := sample.messages.push "hi" }
      sample.run ((Job.call "d.multicall" .generic interrupted).run hopLimit scriptLimit) =
          (.error (.failed (.unknownCommand "x.missing")), f) ∧
        (((Collection.downloads.entities sample.session .generic = none ∨
            interrupted.columns = []) ∧ f = sample) ∨
          ∃ entities, Collection.downloads.entities sample.session .generic = some entities ∧
            Stops hopLimit scriptLimit sample (entities ×ˢ interrupted.columns)
              (.failed (.unknownCommand "x.missing")) f ∧
            ∀ P : Engine → Prop, (∀ cell ∈ entities ×ˢ interrupted.columns, ∀ t, P t →
              P (t.runCell hopLimit scriptLimit cell).2) → P sample → P f) := by
  obtain ⟨entry, hentry, hcallable, hrun⟩ := sample_interrupted
  exact ⟨entry, hentry, hcallable, hrun,
    multicall_error_leaves_cells hentry hcallable .generic interrupted hopLimit scriptLimit hrun⟩

/-- **A multicall that fails may leave a message.** -/
theorem failed_multicall_changes_messages :
    ¬ ∀ (e f : Engine) (c : Collection) (key : String) (entry : CommandEntry) (target : Target)
        (args : Value) (h : Halt),
      e.commands.find? key = some entry → entry.callable = c.command →
        e.run ((Job.call key target args).run hopLimit scriptLimit) = (.error h, f) →
          f.session = e.session ∧ f.commands = e.commands ∧ f.messages = e.messages := by
  intro hclaim
  obtain ⟨entry, hentry, hcallable, hrun⟩ := sample_interrupted
  have hmessages := (hclaim _ _ _ _ _ _ _ _ hentry hcallable hrun).2.2
  exact absurd hmessages (show MessageLog.empty.push "hi" ≠ MessageLog.empty by decide)

end Engine

end TorrentControl
