import TorrentControl.Engine.Plan
import TorrentControl.Script
import TorrentControl.Statement.Weight
import TorrentControl.Value.Display

/-! # What invocations do

Most commands read or change one thing. The others send for further commands, in three ways: a
command text within the arguments is executed, a script is run, and a key is called. Their plans leave
these errands open. A text within the arguments is no longer than the arguments are heavy, so that
commands within arguments within arguments come to an end. -/

namespace TorrentControl

/-! ## Command texts within arguments -/

/-- The text is the value itself or an item of it. -/
def Value.Says : Value → String → Prop
  | .text s, t => t = s
  | .list items, t => .text t ∈ items
  | _, _ => False

theorem Value.weight_le_of_mem {v : Value} {items : List Value} (h : v ∈ items) :
    v.weight ≤ Value.weightOfItems items := by
  induction items with
  | nil => simp at h
  | cons first rest ih =>
    simp only [weightOfItems]
    rcases List.mem_cons.1 h with rfl | h
    · omega
    · have := ih h
      omega

theorem Value.Says.length_le {v : Value} {text : String} (h : v.Says text) :
    text.length ≤ v.weight := by
  cases v with
  | text s => exact Nat.le_of_eq (congrArg String.length h)
  | list items =>
    have := Value.weight_le_of_mem h
    simp only [weight] at this ⊢
    omega
  | _ => exact h.elim

theorem Value.says_argument {v : Value} {text : String} (h : v.argument = .text text) :
    v.Says text := by
  unfold argument at h
  split at h
  · exact h ▸ List.mem_cons_self
  · exact h ▸ rfl

/-- A command text that stands within arguments. -/
structure InnerText (args : Value) where
  text : String
  said : args.Says text

/-- A value within the arguments as a command text. -/
def InnerText.ofValue {args : Value} (v : Value) (h : ∀ text, v = .text text → args.Says text) :
    Except CommandError (InnerText args) :=
  match v, h with
  | .text text, h => .ok ⟨text, h text rfl⟩
  | v, _ => .error (.value (v.mismatch .text))

/-! ## Errands -/

/-- A run that an invocation with these arguments sends for. -/
inductive Errand (args : Value) where
  | text (target : Target) (inner : InnerText args)
  | script (target : Target) (script : String)
  /-- A call by key, with arguments of its own. -/
  | order (key : String) (target : Target) (params : Value)

/-- Calls a key on a download for what it does and not for what it answers. -/
def orderOn {args : Value} (id : DownloadId) (key : String) (params : Value) :
    Plan (Errand args) Unit := do
  let _ ← Plan.request (.order key (.download id) params)

/-! ## Multicalls -/

/-- The columns of a multicall: everything in a list behind its first item, which is reserved. What
is no text is an error of each cell. -/
def multicallColumns : (args : Value) →
    Except CommandError (List (Except CommandError (InnerText args)))
  | .list (reserved :: column :: columns) =>
    .ok <| (column :: columns).attach.map fun v => InnerText.ofValue v.val fun _ h =>
      List.mem_cons_of_mem reserved (h ▸ v.property)
  | .list _ => .error .tooFewArguments
  | v => .error (.value (v.mismatch .list))

/-- Executes every column against every target, and answers a row for each target. -/
def multicall {args : Value} (targets : List Target) : Plan (Errand args) Value := do
  let columns ← Run.lift (multicallColumns args)
  let rows ← targets.mapM fun target => do
    let cells ← columns.mapM fun column => do
      Plan.request (.text target (← Run.lift column))
    return Value.list cells
  return .list rows

/-- The parts of a download, in the order of their indexes. -/
def Part.targets (id : DownloadId) (d : Download) : Part → List Target
  | .files => (List.range d.files.files.length).map fun i => .file ⟨id, i⟩
  | .peers => (List.range d.peers.length).map fun i => .peer ⟨id, i⟩
  | .trackers => (List.range d.trackers.trackers.length).map fun i => .tracker ⟨id, i⟩

/-! ## Comparisons -/

/-- The command by which two downloads are compared. -/
def comparisonText (args : Value) : Except CommandError (InnerText args) := do
  let inner ← InnerText.ofValue args.argument fun _ => Value.says_argument
  if inner.text = "" then throw (.missingArgument .comparisonKey)
  return inner

def PairCommand.verdict (order : Ordering) : PairCommand → Value
  | .less => .ofBool order.isLT
  | .greater => .ofBool order.isGT
  | .compare =>
    match order with
    | .lt => .int (-1)
    | .eq => .int 0
    | .gt => .int 1

def PairCommand.plan {args : Value} (first second : DownloadId) (command : PairCommand) :
    Plan (Errand args) Value := do
  let text ← Run.lift (comparisonText args)
  let left ← Plan.request (.text (.download first) text)
  let right ← Plan.request (.text (.download second) text)
  return command.verdict (← Run.lift (CommandError.ofValue (left.order right)))

/-! ## Methods made at run time -/

/-- A list as its items, and anything else as the one item. -/
def positional : Value → List Value
  | .list items => items
  | v => [v]

def asText (v : Value) : Except CommandError String :=
  CommandError.ofValue v.asText

/-- Reads modifiers of a method kind; the last one decides whether the method is public. -/
def readModifiers (isPublic : Bool) : List String → Except CommandError Bool
  | [] => .ok isPublic
  | modifier :: rest =>
    if modifier = "public" then readModifiers true rest
    else if modifier = "private" then readModifiers false rest
    else .error (.input (.unknownMethodModifier modifier))

/-- Reads a method kind: `simple`, with modifiers behind bars. -/
def readMethodKind (kind : String) : Except CommandError Bool :=
  match (Text.split '|' kind.toList).map fun piece => String.ofList (Text.trimChars piece) with
  | "simple" :: modifiers => readModifiers false modifiers
  | _ => .error (.input (.unknownMethodKind kind))

/-- Registers a script under a key. -/
def insertMethod (args : Value) : Run Unit := do
  match positional args with
  | key :: kind :: script :: _ =>
    let key ← Run.lift (asText key)
    let kind ← Run.lift (asText kind)
    let script ← Run.lift (asText script)
    let isPublic ← Run.lift (readMethodKind kind)
    if key = "" then Run.fail (.missingArgument .methodKey)
    Run.register fun r => r.insert key (.script script) ⟨false, true, isPublic⟩ "i:" ""
  | _ => Run.fail (.missingArgument .methodDefinition)

def aliasMethod (args : Value) : Run Unit := do
  match positional args with
  | key :: source :: _ =>
    let key ← Run.lift (asText key)
    let source ← Run.lift (asText source)
    Run.register fun r => r.insertAlias key true source
  | _ => Run.fail (.missingArgument .methodAlias)

/-! ## Commands of each kind -/

/-- The parts of a list one behind the other, or the text of anything else. -/
def printed : Value → String
  | .list parts => String.join (parts.map Value.display)
  | v => v.display

def GenericCommand.plan {args : Value} : GenericCommand → Plan (Errand args) Value
  | .downloadList => do
    return .list ((← Run.session).toList.map fun entry => .text entry.2.hashText)
  | .multicall => do
    TorrentControl.multicall ((← Run.session).ids.map .download)
  | .print => do
    Run.report (printed args)
    return .empty
  | .insertMethod => do
    TorrentControl.insertMethod args
    return .empty
  | .aliasMethod => do
    TorrentControl.aliasMethod args
    return .empty
  | .eraseMethod => do
    let key ← Run.lift args.asTextArgument
    return .ofBool (← Run.eraseCommand key)
  | .existsMethod => do
    let key ← Run.lift args.asTextArgument
    return .ofBool ((← get).commands.contains key)

/-- Removes the file that a download is tied to, and the tie. -/
def deleteTied {args : Value} (id : DownloadId) : Plan (Errand args) Unit := do
  match ← Plan.request (.order "d.get_tied_to_file" (.download id) .empty) with
  | .text "" => return
  | .text path =>
    Run.unlink path
    orderOn id "d.set_tied_to_file" (.text "")
  | v => Run.fail (.value (v.mismatch .text))

def DownloadCommand.plan {args : Value} (id : DownloadId) :
    DownloadCommand → Plan (Errand args) Value
  | .read reading => do
    Run.lift (reading.read (← Run.download id))
  | .setInt setting => do
    let n ← Run.lift args.asIntArgument
    Run.onDownload id (setting.assign n)
    return .empty
  | .setText setting => do
    let s ← Run.lift args.asTextArgument
    Run.onDownload id (setting.assign s)
    return .empty
  | .act action => do
    Run.onDownload id action.act
    return .empty
  | .list name operation =>
    Run.onDownload id (operation.perform name args)
  | .setCustom => do
    let (key, text) ← Run.lift (customArguments args)
    Run.onDownload id (TorrentControl.setCustom key text)
    return .empty
  | .custom => do
    let key ← Run.lift args.asTextArgument
    return .text (((← Run.download id).customField? key).getD "")
  | .customOrFail => do
    let key ← Run.lift args.asTextArgument
    match (← Run.download id).customField? key with
    | some text => return .text text
    | none => Run.fail (.input .noCustomField)
  | .erase => do
    Run.removeDownload id
    return .empty
  | .deleteTied => do
    TorrentControl.deleteTied id
    return .empty
  | .tryStart => do
    let d ← Run.download id
    unless d.hasHashFailed do
      unless ← Run.lift d.ignoresCommands do
        orderOn id "d.start" .empty
    return .empty
  | .tryStop => do
    unless ← Run.lift (← Run.download id).ignoresCommands do
      orderOn id "d.stop" .empty
    return .empty
  | .tryClose => do
    unless ← Run.lift (← Run.download id).ignoresCommands do
      orderOn id "d.stop" .empty
      orderOn id "d.close" .empty
    return .empty
  | .multicall part => do
    let d ← Run.download id
    TorrentControl.multicall (part.targets id d)

def FileCommand.perform (args : Value) (ref : FileRef) : FileCommand → Run Value
  | .read reading => do
    let session ← Run.session
    let d ← Run.download ref.download
    let file ← Run.lift (session.file ref)
    return reading.read d.files ref.index file
  | .setPriority => do
    let priority ← Run.lift (filePriority args)
    let _ ← Run.lift ((← Run.session).file ref)
    Run.onDownload ref.download <| modify fun d =>
      d.onFile ref.index fun file => { file with priority }
    return .empty

def CursorCommand.perform (ref : FileCursor) : CursorCommand → Run Value
  | .read reading => do
    let count := (← Run.download ref.download).files.files.length
    if count ≤ ref.position then Run.fail (.stale (.cursor ref))
    return reading.read ref.position count

def PeerCommand.perform (ref : PeerRef) : PeerCommand → Run Value
  | .read reading => do
    return reading.read (← Run.lift ((← Run.session).peer ref))

def TrackerCommand.perform (args : Value) (ref : TrackerRef) : TrackerCommand → Run Value
  | .read reading => do
    return reading.read (← Run.lift ((← Run.session).tracker ref))
  | .setEnabled => do
    let n ← Run.lift args.asIntArgument
    let _ ← Run.lift ((← Run.session).tracker ref)
    Run.onDownload ref.download <| modify fun d =>
      d.onTracker ref.index fun tracker => { tracker with isEnabled := n != 0 }
    return .empty

def HostAction.plan {args : Value} (target : Target) : HostAction → Plan (Errand args) Value
  | .echo => return args
  | .describe => return .text target.description
  | .constant v => return v
  | .erase key => return .ofBool (← Run.eraseCommand key)
  | .forward key => Plan.request (.order key target args)
  | .fail e => Run.fail e

def Invocation.plan {args : Value} : Invocation → Plan (Errand args) Value
  | .script text target => Plan.request (.script target text)
  | .generic command => command.plan
  | .download command id => command.plan id
  | .peer command ref => command.perform ref
  | .tracker command ref => command.perform args ref
  | .file command ref => command.perform args ref
  | .cursor command ref => command.perform ref
  | .pair command first second => command.plan first second
  | .hosted action target => action.plan target

/-! ## Scripts -/

/-- Runs statements one after the other and answers what the last one does. Blank ones do not
count. -/
def statementsPlan (statements : List String) : Plan String Value :=
  (statements.filter fun statement => !Text.isBlankText statement).foldlM
    (fun _ statement => Plan.request statement) .empty

def scriptPlan (script : String) : Plan String Value := do
  statementsPlan (← Run.lift (Except.mapError .parse (Script.split script)))

end TorrentControl
