import TorrentControl.Proofs.Json.Record
import TorrentControl.Proofs.NewKeys
import TorrentControl.Proofs.Resolution
import TorrentControl.Proofs.Statement.Writing

/-! # Calling entries by their keys

A key is looked at in four places. The commands that make methods take any text for a key, the one for
aliases even the empty text. A command text calls a key only if there are no blanks and no marks in it.
A request line must name a method that is not blank. And three methods are the reactor's own, whatever
is registered under their names. So a registered key need not be one that its entry can be called
by; but it is as long as no method is made under a text that one of the other places does not let
through. -/

namespace TorrentControl

/-! ## Request lines -/

namespace Rpc.Request

/-- The line is an object that spells the request, whatever its method is. -/
structure Spells (line : List UInt8) (request : Request) : Prop where
  nonempty : trimLine line ≠ []
  decoded : (Json.Reading.ofBytes Json.nestingLimit (trimLine line)).decode ofDocument = .ok request

variable {line : List UInt8} {request : Request}

theorem Spells.ofLine (h : Spells line request) : ofLine line =
    if Text.isBlankText request.method then .error (.invalid .blankMethod) else .ok request := by
  have hnonempty : ¬ (trimLine line).isEmpty = true := by simpa using h.nonempty
  simp only [Request.ofLine, if_neg hnonempty, h.decoded]
  rfl

/-- The line that names a method and nothing else. -/
def lineOf (method : String) : List UInt8 :=
  Text.Utf8.encode (Json.Document.record [("method", .string method)]).write

theorem trimLine_append {b : UInt8} (h : isTrailing b = false) (bytes : List UInt8) :
    trimLine (bytes ++ [b]) = bytes ++ [b] := by
  rw [trimLine, List.reverse_concat, List.dropWhile_cons_of_neg (by simp [h])]
  simp

/-- Every text is the method of a line. -/
theorem spells_lineOf (method : String) : Spells (lineOf method) ⟨method, .generic, .empty⟩ := by
  have hwritable : (Json.Document.record [("method", .string method)]).Writable :=
    ⟨⟨rfl, rfl, trivial⟩, rfl⟩
  have hread : Json.Reading.ofBytes Json.nestingLimit (lineOf method) =
      ⟨.record [("method", .string method)], true⟩ :=
    Json.Reading.ofBytes_encode_write hwritable (show 1 ≤ 127 by decide)
  obtain ⟨bytes, hbytes⟩ : ∃ bytes, lineOf method = bytes ++ [0x7D] :=
    ⟨_, List.flatMap_append⟩
  have htrim : trimLine (lineOf method) = lineOf method := by
    rw [hbytes]
    exact trimLine_append (by decide) bytes
  constructor
  · rw [htrim, hbytes]
    simp
  · rw [htrim, hread]
    rfl

end Rpc.Request

/-! ## Dispatch -/

/-- A call of a key is a call of the entry under it. -/
theorem Engine.call_eq_callEntry {e : Engine} {key : String} {entry : CommandEntry}
    (h : e.commands.find? key = some entry) (target : Target) (args : Value) :
    e.call key target args = e.callEntry key entry target args := by
  refine Engine.run_bind_ok e ?_
  rw [Engine.run_resolve, h]

namespace Rpc.Reactor

variable {r : Reactor} {key : String}

/-- The entry answers the request: its target is looked up, and the entry is called on what was
found. -/
def Dispatches (r : Reactor) (request : Request) (entry : CommandEntry) : Prop :=
  r.handle request = match request.target.resolve r.engine.session with
    | .error f => (.error f, r)
    | .ok target =>
      let (outcome, engine) := r.engine.callEntry request.method entry target request.params
      (answer outcome, listen r.methods engine)

/-- What the reactor calls, it calls by the entry under the method. -/
theorem Settled.dispatches (h : Settled r) {request : Request} {entry : CommandEntry}
    (hentry : r.engine.commands.find? request.method = some entry) (hpublic : entry.isPublic = true)
    (hsystem : request.method ∉ systemMethods) : r.Dispatches request entry := by
  have hlisted := h.contains_iff.2 ((h.mem_publicKeys _).2 ⟨entry, hentry, hpublic⟩)
  rw [Dispatches, handle_eq_call hsystem, Reactor.call, if_pos hlisted]
  cases request.target.resolve r.engine.session with
  | error f => rfl
  | ok target => simp only [Engine.call_eq_callEntry hentry]

/-- A request for a method of the reactor never gets to its target. -/
theorem not_dispatches (hsystem : key ∈ systemMethods) (entry : CommandEntry) :
    ¬ r.Dispatches ⟨key, .download "", .empty⟩ entry := by
  have hunknown : (TargetSpec.download "").resolve r.engine.session =
      .error (.unknownDownload "") := rfl
  intro h
  rw [Dispatches, hunknown] at h
  simp only [systemMethods, List.mem_cons, List.not_mem_nil, or_false] at hsystem
  rcases hsystem with rfl | rfl | rfl <;> cases congrArg Prod.fst h

/-! ## Keys that entries can be called by -/

/-- The entry under the key can be called by it: a command text that is the key calls it, and so do
requests if the key is listed. -/
structure Addresses (r : Reactor) (key : String) : Prop where
  spoken : ∃ args, Statement.parse key = .ok ⟨key, args⟩
  accepted (hlisted : key ∈ KeyMap.keys r.methods) (line : List UInt8) (request : Request)
    (hspells : Request.Spells line request) (hmethod : request.method = key) :
    Request.ofLine line = .ok request
  dispatched (hlisted : key ∈ KeyMap.keys r.methods) : ∃ entry,
    r.engine.commands.find? key = some entry ∧
      ∀ request : Request, request.method = key → r.Dispatches request entry

theorem not_isBlankText_of_isKey (h : Statement.IsKey key) : ¬ Text.isBlankText key = true := by
  intro hblank
  have hall := List.all_eq_true.1 hblank
  obtain ⟨c, hc⟩ := List.exists_mem_of_ne_nil key.toList (by simpa using h.nonempty)
  exact nomatch (hall c hc).symm.trans (h.visible c hc)

/-- **An entry can be called by its key exactly if the key can stand in a command text, and is none of
the reactor's own methods if it is listed.** -/
theorem Settled.addresses_iff (h : Settled r) (key : String) : r.Addresses key ↔
    Statement.IsKey key ∧ (key ∈ r.engine.commands.publicKeys → key ∉ systemMethods) := by
  rw [← h.keys_methods]
  constructor
  · rintro ⟨⟨args, hspoken⟩, -, hdispatched⟩
    refine ⟨(Statement.parse_self_iff.1 hspoken).1, fun hlisted hsystem => ?_⟩
    obtain ⟨entry, -, hentry⟩ := hdispatched hlisted
    exact not_dispatches hsystem entry (hentry _ rfl)
  · rintro ⟨hkey, hsystem⟩
    refine ⟨⟨.empty, Statement.parse_self_iff.2 ⟨hkey, rfl⟩⟩, ?_, fun hlisted => ?_⟩
    · rintro - line request hspells rfl
      rw [hspells.ofLine, if_neg (not_isBlankText_of_isKey hkey)]
    · obtain ⟨entry, hentry, hpublic⟩ := (h.mem_publicKeys key).1 (h.keys_methods ▸ hlisted)
      refine ⟨entry, hentry, ?_⟩
      rintro request rfl
      exact h.dispatches hentry hpublic (hsystem hlisted)

/-! ## Built-in keys -/

/-- The text can be the key of a command text, and is none of the reactor's own methods. -/
structure Addressable (key : String) : Prop where
  isKey : Statement.IsKey key
  not_system : key ∉ systemMethods

/-- The first byte of a character is its code, or beyond ASCII. -/
theorem exists_leading_byte (c : Char) :
    ∃ b ∈ String.utf8EncodeChar c, b.toNat = c.toNat ∨ 192 ≤ b.toNat := by
  have leads {n : Nat} {rest : List UInt8} (hn : n < 256) (h : n = c.toNat ∨ 192 ≤ n) :
      ∃ b ∈ UInt8.ofNat n :: rest, b.toNat = c.toNat ∨ 192 ≤ b.toNat := by
    refine ⟨_, .head _, ?_⟩
    rwa [UInt8.toNat_ofNat_of_lt' hn]
  have hcode : c.val.toNat = c.toNat := rfl
  simp only [String.utf8EncodeChar, hcode]
  split
  · exact leads (by omega) (.inl rfl)
  · split
    · exact leads (by omega) (.inr (by omega))
    · split <;> exact leads (by omega) (.inr (by omega))

/-- Codes of characters that stand for themselves everywhere, among them all those of the built-in
keys. -/
def isOrdinary (code : Nat) : Bool :=
  (46 ≤ code && code ≤ 57) || (95 ≤ code && code ≤ 122)

/-- A text of ordinary bytes is a key. -/
theorem isKey_of_bytes (hnonempty : key ≠ "")
    (h : (key.toByteArray.data.toList.all fun b => isOrdinary b.toNat) = true) :
    Statement.IsKey key := by
  have ordinary (c : Char) (hc : c ∈ key.toList) :
      (46 ≤ c.toNat ∧ c.toNat ≤ 57) ∨ (95 ≤ c.toNat ∧ c.toNat ≤ 122) := by
    rw [← String.utf8Encode_toList, List.utf8Encode, List.data_toByteArray, List.all_eq_true] at h
    obtain ⟨b, hb, hlead⟩ := exists_leading_byte c
    have hordinary := h b (List.mem_flatMap.2 ⟨c, hc, hb⟩)
    simp only [isOrdinary, Bool.or_eq_true, Bool.and_eq_true, decide_eq_true_eq] at hordinary
    omega
  refine ⟨hnonempty, fun c hc => ?_, fun c hc hmark => ?_⟩
  · have := ordinary c hc
    simp only [Text.isBlank, Text.blankRanges, List.any_cons, List.any_nil, Bool.or_false,
      Bool.or_eq_false_iff, Bool.and_eq_false_iff, decide_eq_false_iff_not]
    omega
  · have hcode : c.toNat ∈ ['=', '"', '\x7b', '\x7d', ',', ';'].map Char.toNat :=
      List.mem_map_of_mem hmark
    have := ordinary c hc
    simp only [List.map_cons, List.map_nil, List.mem_cons, List.not_mem_nil, or_false,
      Char.reduceToNat] at hcode
    omega

theorem addressable_builtin {b : Builtin} (hb : b ∈ Builtin.all) : Addressable b.key := by
  -- the bytes of all keys are checked sooner than their characters, which have to be decoded
  have table : ∀ b ∈ Builtin.all, b.key ≠ "" ∧
      (b.key.toByteArray.data.toList.all fun b => isOrdinary b.toNat) = true ∧
        b.key ∉ systemMethods := by
    decide +kernel
  obtain ⟨hnonempty, hordinary, hsystem⟩ := table b hb
  exact ⟨isKey_of_bytes hnonempty hordinary, hsystem⟩

/-! ## Runs -/

theorem Settled.addresses (h : Settled r) (hkey : Addressable key) : r.Addresses key :=
  (h.addresses_iff key).2 ⟨hkey.isKey, fun _ => hkey.not_system⟩

/-- Where methods are made under addressable keys only, all keys are addressable. -/
theorem addressable_after {session : Session} {disk : Disk} {requests : List Request}
    (hmade : ∀ request t key, (start session disk).LeadsTo requests request t →
      t.RegistersAs key → Addressable key) {entry : CommandEntry}
    (h : ((start session disk).after requests).engine.commands.find? key = some entry) :
    Addressable key := by
  refine after_keeps (r := start session disk)
    (P := fun e => ∀ key entry, e.commands.find? key = some entry → Addressable key)
    (fun _ _ h => h) ?_ ?_ key entry h
  · intro key entry h
    rw [find?_start] at h
    obtain ⟨b, hb, rfl, -⟩ := Registry.find?_builtin h
    exact addressable_builtin hb
  · intro first request later task hsplit hstart hengine
    exact Task.run_gains (fun u key hu => hmade request u key
      ⟨first, later, task, hsplit, hstart, hu⟩) hengine hopLimit

/-- **Which entries can be called by their keys, in every state that the reactor gets to.** They are
those whose keys can stand in command texts, apart from listed ones that have the name of one of the
reactor's own methods. All built-in keys are so, and all keys at all if methods are made under such
keys only. -/
theorem entries_addressed_iff (session : Session) (disk : Disk) (requests : List Request) :
    let r := (start session disk).after requests
    (∀ key, r.Addresses key ↔
      Statement.IsKey key ∧ (key ∈ r.engine.commands.publicKeys → key ∉ systemMethods)) ∧
    (∀ b ∈ Builtin.all, r.Addresses b.key) ∧
    ((∀ request t key, (start session disk).LeadsTo requests request t → t.RegistersAs key →
        Addressable key) →
      ∀ key, r.engine.commands.contains key = true → r.Addresses key) := by
  intro r
  have h : Settled r := (settled_start session disk).after requests
  refine ⟨h.addresses_iff, fun b hb => h.addresses (addressable_builtin hb), fun hmade key hkey => ?_⟩
  rw [Registry.contains, KeyMap.contains_iff_find?, Option.isSome_iff_exists] at hkey
  obtain ⟨entry, hentry⟩ := hkey
  exact h.addresses (addressable_after hmade hentry)

/-! ## Keys that nothing calls -/

/-- A request that makes an alias. -/
def aliasing (key source : String) : Request :=
  ⟨"method.alias", .generic, .list [.text key, .text source]⟩

theorem Settled.find?_aliasing (h : Settled r) {source : String} {aliaser original : CommandEntry}
    (haliaser : r.engine.commands.find? "method.alias" = some aliaser)
    (hpublic : aliaser.isPublic = true) (hcallable : aliaser.callable = .generic .aliasMethod)
    (hsource : r.engine.commands.find? source = some original)
    (hfree : r.engine.commands.find? key = none) :
    (r.handle (aliasing key source)).2.engine.commands.find? key =
      some { original with flags := { original.flags with isShared := true, ownsKey := true } } := by
  obtain ⟨commands, hinsert⟩ := Registry.insertEntry_of_free hfree
    { original with flags := { original.flags with isShared := true, ownsKey := true } }
  have halias : r.engine.commands.insertAlias key true source = .ok commands := by
    rw [Registry.insertAlias, hsource]
    exact hinsert
  have hcall := Task.call_alias haliaser hcallable halias
  rw [Engine.call_eq_callEntry haliaser] at hcall
  have hhandle : r.handle (aliasing key source) =
      (.ok .empty, listen r.methods { r.engine with commands }) := by
    refine (h.dispatches haliaser hpublic (show "method.alias" ∉ systemMethods by decide)).trans ?_
    simp only [aliasing, TargetSpec.resolve, hcall]
    rfl
  rw [hhandle, find?_listen, Registry.find?_insertEntry hinsert, if_pos rfl]

theorem Settled.listed_after_aliasing (h : Settled r) {source : String}
    {aliaser original : CommandEntry}
    (haliaser : r.engine.commands.find? "method.alias" = some aliaser)
    (hpublic : aliaser.isPublic = true) (hcallable : aliaser.callable = .generic .aliasMethod)
    (hsource : r.engine.commands.find? source = some original) (hshown : original.isPublic = true)
    (hfree : r.engine.commands.find? key = none) :
    key ∈ (r.handle (aliasing key source)).2.engine.commands.publicKeys :=
  ((h.handle _).mem_publicKeys key).2
    ⟨_, h.find?_aliasing haliaser hpublic hcallable hsource hfree, hshown⟩

/-- **Every text that is not taken can be made a public key.** -/
theorem listed_after_aliasing (session : Session) (disk : Disk)
    (hfree : Registry.builtin.find? key = none) :
    key ∈ ((start session disk).after [aliasing key "download_list"]).engine.commands.publicKeys := by
  obtain ⟨aliaser, haliaser, haliases⟩ := Registry.exists_builtin Builtin.alias_mem
  obtain ⟨original, hsource, hserves⟩ := Registry.exists_builtin Builtin.downloadList_mem
  rw [← find?_start session disk] at haliaser hsource hfree
  rw [after, List.foldl_cons, List.foldl_nil]
  exact (settled_start session disk).listed_after_aliasing haliaser haliases.isPublic
    haliases.callable hsource hserves.isPublic hfree

theorem Settled.contains_of_listed (h : Settled r) (hlisted : key ∈ r.engine.commands.publicKeys) :
    r.engine.commands.contains key = true := by
  obtain ⟨entry, hentry, -⟩ := (h.mem_publicKeys key).1 hlisted
  rw [Registry.contains, KeyMap.contains_iff_find?]
  exact Option.isSome_of_eq_some hentry

theorem Settled.not_addresses_empty (h : Settled r) : ¬ r.Addresses "" :=
  fun haddressed => ((h.addresses_iff "").1 haddressed).1.nonempty rfl

/-- **A public alias that nothing calls.** Neither a command text nor a request line names it. -/
theorem empty_alias_not_addressed :
    let r := (start Session.empty .empty).after [aliasing "" "download_list"]
    "" ∈ r.engine.commands.publicKeys ∧ r.engine.commands.contains "" = true ∧ ¬ r.Addresses "" ∧
      Statement.parse "" = .error (.missingKey "") ∧
        Request.ofLine (Request.lineOf "") = .error (.invalid .blankMethod) := by
  have hfree : Registry.builtin.find? "" = none := by
    refine Option.eq_none_iff_forall_ne_some.2 fun entry hentry => ?_
    obtain ⟨b, hb, hkey, -⟩ := Registry.find?_builtin hentry
    exact (addressable_builtin hb).isKey.nonempty hkey
  have hlisted := listed_after_aliasing Session.empty .empty hfree
  have h := (settled_start Session.empty .empty).after [aliasing "" "download_list"]
  exact ⟨hlisted, h.contains_of_listed hlisted, h.not_addresses_empty, rfl,
    (Request.spells_lineOf "").ofLine⟩

end Rpc.Reactor

end TorrentControl
