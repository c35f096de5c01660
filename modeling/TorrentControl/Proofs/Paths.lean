import TorrentControl.Proofs.Scripts
import TorrentControl.Proofs.Settings
import TorrentControl.Proofs.Text.Split

/-! # Paths of the payload

The payload lies in a directory that commands set, as a directory of its own or as one file below it.
Its path is the directory joined to the path of the file, and its name is cut off from that path again,
after the last slash in it. Joining and cutting do not know where a slash came from. They agree since
no component of the path of a file is empty or has a slash in it. -/

namespace TorrentControl

open Download

/-! ## Cutting after the last slash -/

/-- The text is what comes last in a path: all of it, or what follows its last slash. -/
structure LastComponent (last path : String) : Prop where
  noSlash : '/' ∉ last.toList
  ends : path = last ∨ ∃ before, path = before ++ "/" ++ last

namespace Download

theorem afterLastSlash_append (cs ds : List Char) :
    afterLastSlash (cs ++ '/' :: ds) = afterLastSlash ds := by
  rw [afterLastSlash, Text.split_append_separator,
    List.getLast?_append_of_ne_nil _ (Text.split_ne_nil '/' ds), afterLastSlash]

theorem afterLastSlash_of_not_mem {cs : List Char} (h : '/' ∉ cs) : afterLastSlash cs = cs := by
  rw [afterLastSlash, Text.split_of_not_mem h]
  rfl

theorem afterLastSlash_cases (cs : List Char) : '/' ∉ afterLastSlash cs ∧
    (cs = afterLastSlash cs ∨ ∃ before, cs = before ++ '/' :: afterLastSlash cs) := by
  by_cases hmem : '/' ∈ cs
  · -- the last slash is the first one from behind
    obtain ⟨after, before, hreverse, hafter⟩ :=
      List.eq_append_cons_of_mem (List.mem_reverse.2 hmem)
    obtain rfl : cs = before.reverse ++ '/' :: after.reverse := by
      rw [← List.reverse_reverse cs, hreverse]
      simp
    have hlast : '/' ∉ after.reverse := fun h => hafter (List.mem_reverse.1 h)
    rw [afterLastSlash_append, afterLastSlash_of_not_mem hlast]
    exact ⟨hlast, .inr ⟨_, rfl⟩⟩
  · rw [afterLastSlash_of_not_mem hmem]
    exact ⟨hmem, .inl rfl⟩

/-- **The name of the payload is the last component of its path**, whatever the download. -/
theorem lastComponent_baseFilename (d : Download) : LastComponent d.baseFilename d.basePath := by
  obtain ⟨hslash, hcases⟩ := afterLastSlash_cases d.basePath.toList
  refine ⟨by rwa [baseFilename, String.toList_ofList], ?_⟩
  rcases hcases with hwhole | ⟨before, hbefore⟩
  · refine .inl ?_
    rw [baseFilename, ← hwhole, String.ofList_toList]
  · refine .inr ⟨String.ofList before, String.toList_inj.1 ?_⟩
    simpa [baseFilename] using hbefore

end Download

/-! ## Joining a directory and a path -/

/-- The whole is a path below a directory. Exactly one slash is between the two: one that was put
there, or the one that the directory ends in. -/
structure Joined (directory path whole : String) : Prop where
  relative : path.toList.head? ≠ some '/'
  empty : directory = "" → whole = path
  closed : directory.toList.getLast? = some '/' → whole = directory ++ path
  separated : directory ≠ "" → directory.toList.getLast? ≠ some '/' →
    whole = directory ++ "/" ++ path

namespace Download

theorem joined_joinPath {path : String} (h : path.toList.head? ≠ some '/') (directory : String) :
    Joined directory path (joinPath directory path) where
  relative := h
  empty hempty := if_pos hempty
  closed hclosed := by
    have hne : directory ≠ "" := by
      rintro rfl
      cases hclosed
    rw [joinPath, if_neg hne, if_pos hclosed]
  separated hne hopen := by rw [joinPath, if_neg hne, if_neg hopen]

/-- No slash of the directory comes after those of the path. -/
theorem afterLastSlash_joinPath (directory path : String) :
    afterLastSlash (joinPath directory path).toList = afterLastSlash path.toList := by
  unfold joinPath
  split
  · rfl
  · split
    · rename_i hclosed
      obtain ⟨before, hbefore⟩ := List.getLast?_eq_some_iff.1 hclosed
      rw [String.toList_append, hbefore, List.append_assoc, List.singleton_append,
        afterLastSlash_append]
    · rw [String.toList_append, String.toList_append, List.append_assoc]
      exact afterLastSlash_append _ _

end Download

/-! ## Paths of files -/

namespace File

variable {file : File} {path : String} {size : Int64}

/-- No component of the path is empty, and no slash is in them. -/
def Segmented (file : File) : Prop :=
  ∀ component ∈ file.path, component.toList ≠ [] ∧ '/' ∉ component.toList

theorem segmented_ofPath (hpath : file.path = (ofPath path size).path) : file.Segmented := by
  intro component hcomponent
  rw [hpath] at hcomponent
  obtain ⟨part, hpart, rfl⟩ := List.mem_map.1 hcomponent
  obtain ⟨hmem, hne⟩ := List.mem_filter.1 hpart
  rw [String.toList_ofList]
  exact ⟨of_decide_eq_true hne, fun hslash => (Text.of_mem_split hmem hslash).2 rfl⟩

/-- A path with a part that is not empty has a last component. -/
theorem exists_last_ofPath (hpath : file.path = (ofPath path size).path)
    (hpart : ∃ part ∈ Text.split '/' path.toList, part ≠ []) :
    ∃ first last, file.path = first ++ [last] := by
  obtain ⟨part, hmem, hne⟩ := hpart
  have hkept : part ∈ (Text.split '/' path.toList).filter (· ≠ []) :=
    List.mem_filter.2 ⟨hmem, decide_eq_true hne⟩
  have hnonempty : file.path ≠ [] := by
    rw [hpath]
    exact List.ne_nil_of_mem (List.mem_map_of_mem hkept)
  exact ⟨_, _, (List.dropLast_concat_getLast hnonempty).symm⟩

theorem toList_pathText (file : File) :
    file.pathText.toList = ['/'].intercalate (file.path.map String.toList) :=
  String.toList_intercalate

/-- The path starts with the first character of its first component. -/
theorem head?_pathText (h : file.Segmented) : file.pathText.toList.head? ≠ some '/' := by
  rw [toList_pathText]
  cases hcomponents : file.path with
  | nil => nofun
  | cons first rest =>
    obtain ⟨hne, hslash⟩ := h first (hcomponents ▸ .head _)
    obtain ⟨c, cs, hfirst⟩ := List.exists_cons_of_ne_nil hne
    intro hhead
    rw [hfirst, List.mem_cons, not_or] at hslash
    refine hslash.1 (Option.some.inj (hhead.symm.trans ?_))
    rw [List.map_cons, hfirst]
    cases rest with
    | nil => rw [List.map_nil, List.intercalate_singleton, List.head?_cons]
    | cons => rw [List.map_cons, List.intercalate_cons_cons]; rfl

/-- After the last slash of the path comes its last component. -/
theorem afterLastSlash_pathText (h : file.Segmented) {first : List String} {last : String}
    (hpath : file.path = first ++ [last]) :
    Download.afterLastSlash file.pathText.toList = last.toList := by
  have hpieces : ∀ piece ∈ file.path.map String.toList, '/' ∉ piece := by
    intro piece hpiece
    obtain ⟨component, hcomponent, rfl⟩ := List.mem_map.1 hpiece
    exact (h component hcomponent).2
  have hne : file.path.map String.toList ≠ [] := by simp [hpath]
  rw [toList_pathText, Download.afterLastSlash, Text.split_intercalate_pieces hne hpieces, hpath,
    List.map_append, List.map_singleton, List.getLast?_concat, Option.getD_some]

end File

namespace Download

/-- The download with its payload in another directory. -/
def inDirectory (d : Download) (directory : String) : Download :=
  { d with files := { d.files with directory } }

variable {d : Download}

/-! ## The payload -/

theorem basePath_of_multi (hmulti : d.files.isMultiFile = true) (directory : String) :
    (d.inDirectory directory).basePath = directory :=
  if_pos hmulti

/-- The name of several files is what was appended to their directory. -/
theorem baseFilename_of_multi (hmulti : d.files.isMultiFile = true) (hname : '/' ∉ d.name.toList)
    (directory : String) : (d.inDirectory (joinPath directory d.name)).baseFilename = d.name := by
  rw [baseFilename, basePath_of_multi hmulti, afterLastSlash_joinPath,
    afterLastSlash_of_not_mem hname, String.ofList_toList]

theorem basePath_of_single {file : File} {others : List File}
    (hsingle : d.files.isMultiFile = false) (hfiles : d.files.files = file :: others)
    (directory : String) :
    (d.inDirectory directory).basePath = joinPath directory file.pathText := by
  simp only [basePath, inDirectory, hsingle, hfiles]
  rfl

end Download

/-! ## Commands that set the directory -/

namespace Engine

variable {e : Engine} {id : DownloadId} {d : Download}

/-- A built-in command that reads a file answers what is read of it. -/
theorem shows_file (hintact : e.commands.Intact) {b : Builtin} (hb : b ∈ Builtin.all)
    {r : FileReading} (hcallable : b.callable = .file (.read r)) {ref : FileRef}
    (hlive : e.session.get? ref.download = some d) {file : File}
    (hfile : d.files.files[ref.index]? = some file) {target : Target} (htarget : target.IsFile ref) :
    e.Shows b.key target (r.read d.files ref.index file) := by
  intro args hops left
  have hindex := (List.getElem?_eq_some_iff.1 hfile).1
  have hreceives : b.callable.Receives e.session target (.file (.read r) ref) :=
    hcallable ▸ htarget.receives hlive hindex _
  have haim := (hintact.aim hb target).trans (hreceives.aim b.key)
  rw [Task.run_call_of_aim haim, Invocation.plan, Plan.run_lift, FileCommand.perform,
    run_bind_ok e (run_session e), run_bind_ok e (run_download_of_get? hlive),
    Session.file_eq_ok_iff.2 ⟨d, hlive, hfile⟩]
  rfl

/-- A setter of a text goes through with one download changed. -/
theorem run_setText (hintact : e.commands.Intact) {b : Builtin} (hb : b ∈ Builtin.all)
    {setting : TextSetting} (hcallable : b.callable = .download (.setText setting))
    (hlive : e.session.get? id = some d) {args : Value} {s : String}
    (hargs : args.asTextArgument = .ok s) {d' : Download}
    (hassign : (setting.assign s).run.run d = (.ok (), d')) (hops left : Nat) :
    e.run ((Job.call b.key (.download id) args).run hops left) = (.ok .empty, e.put id (some d')) := by
  obtain ⟨entry, hentry, hserves⟩ := hintact b hb
  exact run_performs hentry (hserves.trans hcallable) (performs_setText hargs setting) hlive
    hassign hops left

/-- A setter of a directory puts the payload into a directory. -/
theorem run_setDirectory (hintact : e.commands.Intact) (hlive : e.session.get? id = some d)
    {args : Value} {directory : String} (hargs : args.asTextArgument = .ok directory)
    (hops left : Nat) :
    e.run ((Job.call "d.set_directory" (.download id) args).run hops left) =
      (.ok .empty, e.put id (some (d.inDirectory
        (if d.files.isMultiFile then joinPath directory d.name else directory)))) ∧
    e.run ((Job.call "d.set_directory_base" (.download id) args).run hops left) =
      (.ok .empty, e.put id (some (d.inDirectory directory))) := by
  have hset : Builtin.setText "d.set_directory" .directory ∈ Builtin.all := by
    simp [Builtin.all, Builtin.settings]
  have hsetBase : Builtin.setText "d.set_directory_base" .directoryBase ∈ Builtin.all := by
    simp [Builtin.all, Builtin.settings]
  exact ⟨run_setText hintact hset rfl hlive hargs rfl hops left,
    run_setText hintact hsetBase rfl hlive hargs rfl hops left⟩

/-- What is shown of the paths of a live download. -/
theorem shows_paths (hintact : e.commands.Intact) (hlive : e.session.get? id = some d) :
    e.Shows "d.get_directory" (.download id) (.text d.files.directory) ∧
    e.Shows "d.get_base_path" (.download id) (.text d.basePath) ∧
    e.Shows "d.get_base_filename" (.download id) (.text d.baseFilename) := by
  have hdirectory : Builtin.readText "d.get_directory" .directory ∈ Builtin.all := by
    simp [Builtin.all, Builtin.settings]
  have hpath : Builtin.readText "d.get_base_path" .basePath ∈ Builtin.all := by
    simp [Builtin.all, Builtin.identity]
  have hname : Builtin.readText "d.get_base_filename" .baseFilename ∈ Builtin.all := by
    simp [Builtin.all, Builtin.identity]
  exact ⟨shows_read hintact hdirectory rfl hlive rfl, shows_read hintact hpath rfl hlive rfl,
    shows_read hintact hname rfl hlive rfl⟩

/-- What is shown of the path of a file, on the file itself and on a cursor that points at it. -/
theorem shows_filePaths (hintact : e.commands.Intact) {ref : FileRef}
    (hlive : e.session.get? ref.download = some d) {file : File}
    (hfile : d.files.files[ref.index]? = some file) {target : Target} (htarget : target.IsFile ref) :
    e.Shows "f.get_path" target (.text file.pathText) ∧
    e.Shows "f.get_path_components" target (.list (file.path.map .text)) := by
  have hpath : Builtin.readFile "f.get_path" .path "s:" ∈ Builtin.all := by
    simp [Builtin.all, Builtin.files]
  have hcomponents : Builtin.readFile "f.get_path_components" .pathComponents "i:" ∈
      Builtin.all := by
    simp [Builtin.all, Builtin.files]
  exact ⟨shows_file hintact hpath rfl hlive hfile htarget,
    shows_file hintact hcomponents rfl hlive hfile htarget⟩

/-! ## The paths agree -/

section Agree

variable {args : Value} {directory : String}

/-- Several files: the name of the download comes below the directory that was set. -/
theorem multi_paths_agree (hintact : e.commands.Intact) (hlive : e.session.get? id = some d)
    (hmulti : d.files.isMultiFile = true) (hname : '/' ∉ d.name.toList)
    (hargs : args.asTextArgument = .ok directory) (hops left : Nat) : ∃ t whole,
      e.run ((Job.call "d.set_directory" (.download id) args).run hops left) = (.ok .empty, t) ∧
      t.Shows "d.get_base_filename" (.download id) (.text d.name) ∧
      t.Shows "d.get_base_path" (.download id) (.text whole) ∧
      t.Shows "d.get_directory" (.download id) (.text whole) ∧ Joined directory d.name whole := by
  obtain ⟨hrun, -⟩ := run_setDirectory hintact hlive hargs hops left
  rw [if_pos hmulti] at hrun
  obtain ⟨hdirectory, hpath, hfilename⟩ := shows_paths (e := e.put id _) hintact
    (get?_put hlive (some (d.inDirectory (joinPath directory d.name))))
  rw [baseFilename_of_multi hmulti hname] at hfilename
  rw [basePath_of_multi hmulti] at hpath
  exact ⟨_, _, hrun, hfilename, hpath, hdirectory,
    joined_joinPath (fun h => hname (List.mem_of_mem_head? h)) directory⟩

/-- One file: its path comes below the directory that was set. -/
theorem single_paths_agree (hintact : e.commands.Intact) (hlive : e.session.get? id = some d)
    (hsingle : d.files.isMultiFile = false) {file : File} {others : List File}
    (hfiles : d.files.files = file :: others) {path : String} {size : Int64}
    (hpath : file.path = (File.ofPath path size).path)
    (hpart : ∃ part ∈ Text.split '/' path.toList, part ≠ [])
    (hargs : args.asTextArgument = .ok directory) (hops left : Nat) {key : String}
    (hkey : key = "d.set_directory" ∨ key = "d.set_directory_base") :
    ∃ t first last whole,
      e.run ((Job.call key (.download id) args).run hops left) = (.ok .empty, t) ∧
      (∀ target : Target, target.IsFile ⟨id, 0⟩ →
        t.Shows "f.get_path" target (.text file.pathText) ∧
        t.Shows "f.get_path_components" target (.list (file.path.map .text))) ∧
      file.path = first ++ [last] ∧
      t.Shows "d.get_base_filename" (.download id) (.text last) ∧
      t.Shows "d.get_base_path" (.download id) (.text whole) ∧
      t.Shows "d.get_directory" (.download id) (.text directory) ∧
      Joined directory file.pathText whole := by
  have hrun : e.run ((Job.call key (.download id) args).run hops left) =
      (.ok .empty, e.put id (some (d.inDirectory directory))) := by
    obtain ⟨hset, hsetBase⟩ := run_setDirectory hintact hlive hargs hops left
    rw [hsingle] at hset
    rcases hkey with rfl | rfl
    · exact hset
    · exact hsetBase
  obtain ⟨first, last, hlast⟩ := File.exists_last_ofPath hpath hpart
  have hsegmented := File.segmented_ofPath hpath
  have hplaced := get?_put hlive (some (d.inDirectory directory))
  have hfile : (d.inDirectory directory).files.files[0]? = some file := by
    rw [inDirectory, hfiles]
    rfl
  obtain ⟨hdirectory, hwhole, hfilename⟩ := shows_paths (e := e.put id _) hintact hplaced
  have hbase : (d.inDirectory directory).baseFilename = last := by
    rw [baseFilename, basePath_of_single hsingle hfiles, afterLastSlash_joinPath,
      File.afterLastSlash_pathText hsegmented hlast, String.ofList_toList]
  rw [hbase] at hfilename
  rw [basePath_of_single hsingle hfiles] at hwhole
  refine ⟨_, first, last, _, hrun, fun target htarget => ?_, hlast, hfilename, hwhole, hdirectory,
    joined_joinPath (File.head?_pathText hsegmented) directory⟩
  exact shows_filePaths (e := e.put id _) hintact hplaced hfile htarget

end Agree

/-- **Paths are put together and taken apart consistently.** Where the built-in keys are bound to the
built-in commands, the name that is shown of the payload of a live download is the last component of
the path that is shown, and a directory can always be set. Several files under a name without a slash
are then shown in the directory of that name below it, which is the path of the payload. One file that
was made from a path with a component is shown at the path of the file below the directory, under its
last component, and the directory is shown as it was set. -/
theorem paths_agree (hintact : e.commands.Intact) (hlive : e.session.get? id = some d) :
    (∃ path last, e.Shows "d.get_base_path" (.download id) (.text path) ∧
      e.Shows "d.get_base_filename" (.download id) (.text last) ∧ LastComponent last path) ∧
    ∀ (args : Value) (directory : String), args.asTextArgument = .ok directory → ∀ hops left,
      (d.files.isMultiFile = true → '/' ∉ d.name.toList → ∃ t whole,
        e.run ((Job.call "d.set_directory" (.download id) args).run hops left) = (.ok .empty, t) ∧
        t.Shows "d.get_base_filename" (.download id) (.text d.name) ∧
        t.Shows "d.get_base_path" (.download id) (.text whole) ∧
        t.Shows "d.get_directory" (.download id) (.text whole) ∧ Joined directory d.name whole) ∧
      (d.files.isMultiFile = false → ∀ file others path size, d.files.files = file :: others →
        file.path = (File.ofPath path size).path →
        (∃ part ∈ Text.split '/' path.toList, part ≠ []) →
        ∀ key, key = "d.set_directory" ∨ key = "d.set_directory_base" →
          ∃ t first last whole,
            e.run ((Job.call key (.download id) args).run hops left) = (.ok .empty, t) ∧
            (∀ target : Target, target.IsFile ⟨id, 0⟩ →
              t.Shows "f.get_path" target (.text file.pathText) ∧
              t.Shows "f.get_path_components" target (.list (file.path.map .text))) ∧
            file.path = first ++ [last] ∧
            t.Shows "d.get_base_filename" (.download id) (.text last) ∧
            t.Shows "d.get_base_path" (.download id) (.text whole) ∧
            t.Shows "d.get_directory" (.download id) (.text directory) ∧
            Joined directory file.pathText whole) := by
  obtain ⟨-, hpath, hname⟩ := shows_paths hintact hlive
  refine ⟨⟨_, _, hpath, hname, d.lastComponent_baseFilename⟩,
    fun args directory hargs hops left => ⟨fun hmulti hslash => ?_,
      fun hsingle file others path size hfiles hofPath hpart key hkey => ?_⟩⟩
  · exact multi_paths_agree hintact hlive hmulti hslash hargs hops left
  · exact single_paths_agree hintact hlive hsingle hfiles hofPath hpart hargs hops left hkey

end Engine

/-- A fresh download with one file, whose path has more slashes than it needs. -/
def Download.scattered (isMultiFile : Bool) : Download :=
  { Download.fresh "a" .zero with
    files := { FileList.empty with isMultiFile, files := [.ofPath "/b//c/" 1] } }

def Session.scattered (isMultiFile : Bool) : Session :=
  (Session.empty.insert (.scattered isMultiFile)).2

/-- Both layouts below a directory: one that ends in a slash, and one that does not. -/
theorem Engine.scattered_paths_agree : (∃ t : Engine,
    (withBuiltins (.scattered true) .empty).call "d.set_directory" (.download ⟨0, 0⟩) (.text "/x") =
      (.ok .empty, t) ∧
    t.Shows "d.get_base_filename" (.download ⟨0, 0⟩) (.text "a") ∧
    t.Shows "d.get_directory" (.download ⟨0, 0⟩) (.text "/x/a")) ∧
    ∃ t : Engine,
    (withBuiltins (.scattered false) .empty).call "d.set_directory_base" (.download ⟨0, 0⟩)
      (.text "/x/") = (.ok .empty, t) ∧
    t.Shows "f.get_path_components" (.file ⟨⟨0, 0⟩, 0⟩) (.list [.text "b", .text "c"]) ∧
    t.Shows "d.get_base_filename" (.download ⟨0, 0⟩) (.text "c") ∧
    t.Shows "d.get_base_path" (.download ⟨0, 0⟩) (.text "/x/b/c") := by
  obtain ⟨-, hmulti⟩ := paths_agree (intact_withBuiltins (.scattered true) .empty)
    (show (Session.scattered true).get? ⟨0, 0⟩ = some (.scattered true) from rfl)
  obtain ⟨-, hsingle⟩ := paths_agree (intact_withBuiltins (.scattered false) .empty)
    (show (Session.scattered false).get? ⟨0, 0⟩ = some (.scattered false) from rfl)
  obtain ⟨t, several, hset, hname, -, hdirectory, hbelow⟩ :=
    (hmulti (.text "/x") "/x" rfl hopLimit scriptLimit).1 rfl (by decide)
  obtain ⟨u, first, last, one, hsetBase, hfile, hpath, hlast, hbase, -, hinside⟩ :=
    (hsingle (.text "/x/") "/x/" rfl hopLimit scriptLimit).2 rfl _ [] "/b//c/" 1 rfl rfl
      ⟨['b'], by decide, by decide⟩ "d.set_directory_base" (.inr rfl)
  obtain ⟨-, hcomponents⟩ := hfile (.file ⟨⟨0, 0⟩, 0⟩) (.inl rfl)
  have hpieces : (File.ofPath "/b//c/" 1).path = ["b"] ++ ["c"] := by decide
  have hends := List.append_inj_right' (hpieces.symm.trans hpath) rfl
  obtain rfl : "c" = last := List.singleton_inj.1 hends
  rw [hpieces] at hcomponents
  have hseveral : several = "/x/a" := hbelow.separated (by decide) (by decide)
  have hone : one = "/x/b/c" := by
    rw [hinside.closed (by decide), File.pathText, hpieces]
    decide
  exact ⟨⟨t, hset, hname, hseveral ▸ hdirectory⟩, u, hsetBase, hcomponents, hlast, hone ▸ hbase⟩

end TorrentControl
