import TorrentControl.Proofs.Targets
import TorrentControl.Proofs.ValueJson

/-! # What is written for a request

A request is an object with its method, its target and its parameters, each at most once and in any
order, where a generic target and empty parameters may be left out. Or it is an array of the same in
their order, where the last ones may be left out if they are these. -/

namespace TorrentControl.Rpc

open Json (Document Problem)
open Outcome

namespace Request

/-- The member says what the request has in that place. -/
inductive WritesMember (r : Request) : Option String × Document → Prop where
  | method : WritesMember r (some "method", .string r.method)
  | target {d : Document} (h : r.target.Writes d) : WritesMember r (some "target", d)
  | params {d : Document} (h : Value.Mirrors d r.params) : WritesMember r (some "params", d)

def keys (members : List (Option String × Document)) : List (Option String) :=
  members.map Prod.fst

/-- The members say what the request has, each thing once, and what none of them says is the
default. -/
structure HasMembers (r : Request) (members : List (Option String × Document)) : Prop where
  each : ∀ member ∈ members, r.WritesMember member
  once : (keys members).Nodup
  method : some "method" ∈ keys members
  target : some "target" ∈ keys members ∨ r.target = .generic
  params : some "params" ∈ keys members ∨ r.params = .empty

/-- **The document is written for the request.** -/
inductive Writes (r : Request) : Document → Prop where
  | object {members : List (Option String × Document)} (h : r.HasMembers members) :
      Writes r (.object members .closed)
  | method (htarget : r.target = .generic) (hparams : r.params = .empty) :
      Writes r (.list [.string r.method])
  | target {d : Document} (htarget : r.target.Writes d) (hparams : r.params = .empty) :
      Writes r (.list [.string r.method, d])
  | params {d e : Document} (htarget : r.target.Writes d) (hparams : Value.Mirrors e r.params) :
      Writes r (.list [.string r.method, d, e])

variable {r r' r'' : Request} {key : String} {d : Document}

/-- The object with all three members. -/
def toDocument (r : Request) : Document :=
  .record [("method", .string r.method), ("target", r.target.toDocument),
    ("params", r.params.toDocument)]

theorem writes_toDocument (htarget : r.target.Fits) (hordered : r.params.Ordered)
    (hraw : r.params.RawFree) : r.Writes r.toDocument := by
  have hmembers : r.HasMembers [(some "method", .string r.method),
      (some "target", r.target.toDocument), (some "params", r.params.toDocument)] := by
    have honce : [some "method", some "target", some "params"].Nodup := by decide
    have hparams : Value.Mirrors r.params.toDocument r.params := by
      rw [← Value.ofDocument_eq_ok_iff, Value.ofDocument_toDocument hordered, hraw.rawAsList_eq]
    have heach : ∀ member ∈ [(some "method", .string r.method),
        (some "target", r.target.toDocument), (some "params", r.params.toDocument)],
        r.WritesMember member := by
      simp only [List.forall_mem_cons, List.not_mem_nil, false_implies, implies_true, and_true]
      exact ⟨.method, .target (TargetSpec.writes_toDocument htarget), .params hparams⟩
    exact ⟨heach, honce, .head _, .inl (.tail _ (.head _)), .inl (.tail _ (.tail _ (.head _)))⟩
  exact .object hmembers

theorem writable_toDocument (r : Request) : r.toDocument.Writable :=
  ⟨⟨rfl, rfl, rfl, r.target.writable_toDocument, rfl, r.params.writable_toDocument, trivial⟩, rfl⟩

/-! ## Members one after another -/

/-- What none of the keys names is the same. -/
structure Keeps (keys : List (Option String)) (r r' : Request) : Prop where
  method : some "method" ∈ keys ∨ r'.method = r.method
  target : some "target" ∈ keys ∨ r'.target = r.target
  params : some "params" ∈ keys ∨ r'.params = r.params

theorem Keeps.trans {first rest : List (Option String)} (h : Keeps first r r')
    (h' : Keeps rest r' r'') : Keeps (first ++ rest) r r'' := by
  constructor
  · rcases h.method, h'.method with ⟨_ | h, _ | h'⟩ <;> simp_all
  · rcases h.target, h'.target with ⟨_ | h, _ | h'⟩ <;> simp_all
  · rcases h.params, h'.params with ⟨_ | h, _ | h'⟩ <;> simp_all

theorem WritesMember.iff : r.WritesMember (some key, d) ↔ (key = "method" ∧ d = .string r.method) ∨
    (key = "target" ∧ r.target.Writes d) ∨ (key = "params" ∧ Value.Mirrors d r.params) := by
  constructor
  · intro h
    cases h with
    | method => exact .inl ⟨rfl, rfl⟩
    | target h => exact .inr (.inl ⟨rfl, h⟩)
    | params h => exact .inr (.inr ⟨rfl, h⟩)
  · rintro (⟨rfl, rfl⟩ | ⟨rfl, h⟩ | ⟨rfl, h⟩)
    · exact .method
    · exact .target h
    · exact .params h

theorem mem_keys_iff {members : List (Option String × Document)} :
    some key ∈ keys members ↔ ∃ d, (some key, d) ∈ members := by
  simp [keys]

/-- What has the same members is the same request. -/
theorem HasMembers.unique {members : List (Option String × Document)} (h : r.HasMembers members)
    (h' : r'.HasMembers members) : r = r' := by
  have hmethod : r.method = r'.method := by
    obtain ⟨d, hd⟩ := mem_keys_iff.1 h.method
    have hwrites := WritesMember.iff.1 (h.each _ hd)
    have hwrites' := WritesMember.iff.1 (h'.each _ hd)
    simp only [true_and, String.reduceEq, false_and, or_false] at hwrites hwrites'
    simpa [Document.string] using hwrites.symm.trans hwrites'
  have htarget : r.target = r'.target := by
    by_cases hkey : some "target" ∈ keys members
    · obtain ⟨d, hd⟩ := mem_keys_iff.1 hkey
      have hwrites := WritesMember.iff.1 (h.each _ hd)
      have hwrites' := WritesMember.iff.1 (h'.each _ hd)
      simp only [true_and, String.reduceEq, false_and, or_false, false_or] at hwrites hwrites'
      exact hwrites.unique hwrites'
    · rw [h.target.resolve_left hkey, h'.target.resolve_left hkey]
  have hparams : r.params = r'.params := by
    by_cases hkey : some "params" ∈ keys members
    · obtain ⟨d, hd⟩ := mem_keys_iff.1 hkey
      have hwrites := WritesMember.iff.1 (h.each _ hd)
      have hwrites' := WritesMember.iff.1 (h'.each _ hd)
      simp only [true_and, String.reduceEq, false_and, false_or] at hwrites hwrites'
      exact Except.ok.inj (hwrites.ofDocument_eq.symm.trans hwrites'.ofDocument_eq)
    · rw [h.params.resolve_left hkey, h'.params.resolve_left hkey]
  cases r
  cases r'
  simp_all only

theorem WritesMember.kept {keys : List (Option String)} (h : r.WritesMember (some key, d))
    (hkeeps : Keeps keys r r') (hkey : some key ∉ keys) : r'.WritesMember (some key, d) := by
  cases h with
  | method => exact (hkeeps.method.resolve_left hkey) ▸ .method
  | target h => exact .target ((hkeeps.target.resolve_left hkey).symm ▸ h)
  | params h => exact .params ((hkeeps.params.resolve_left hkey).symm ▸ h)

/-- The field that a key names. -/
def field? (key : String) : Option (Json.Field Request) :=
  shape.fields.find? fun field => field.name == key

theorem of_field? {field : Json.Field Request} (h : field? key = some field) :
    field.name = key ∧ (field = .of "method" Document.asString (fun r method => { r with method }) ∨
      field = .of "target" TargetSpec.ofDocument (fun r target => { r with target }) ∨
      field = .of "params" Value.ofDocument fun r params => { r with params }) := by
  have hname := List.find?_some h
  have hfield := List.mem_of_find?_eq_some h
  simp only [shape, List.mem_cons, List.not_mem_nil, or_false] at hfield
  exact ⟨eq_of_beq hname, hfield⟩

theorem putMember_unknown (hfind : field? key = none) {met : List String}
    {next : Request × List String} : shape.putMember r met key d ≠ .ok next := by
  rw [Json.RecordShape.putMember_unknown hfind]
  nofun

/-- What a member is put into says what it says, and keeps the rest. Its key is a new one. -/
theorem of_putMember {met names : List String} (h : shape.putMember r met key d = .ok (r', names)) :
    key ∉ met ∧ names = key :: met ∧ r'.WritesMember (some key, d) ∧ Keeps [some key] r r' := by
  cases hfind : field? key with
  | none => exact absurd h (putMember_unknown hfind)
  | some field =>
    rw [Json.RecordShape.putMember_field hfind] at h
    split at h
    · cases h
    rename_i hnew
    obtain ⟨next, hput, ⟨⟩⟩ := bind_eq_ok_iff.1 h
    refine ⟨by simpa using hnew, rfl, ?_⟩
    obtain ⟨rfl, hfield⟩ := of_field? hfind
    rcases hfield with rfl | rfl | rfl
    · obtain ⟨method, hd, rfl⟩ := map_eq_ok_iff.1 hput
      obtain rfl := Json.asString_eq_ok_iff.1 hd
      exact ⟨.method, .inl (.head _), .inr rfl, .inr rfl⟩
    · obtain ⟨target, hd, rfl⟩ := map_eq_ok_iff.1 hput
      exact ⟨.target (TargetSpec.ofDocument_eq_ok_iff.1 hd), .inr rfl, .inl (.head _), .inr rfl⟩
    · obtain ⟨params, hd, rfl⟩ := map_eq_ok_iff.1 hput
      exact ⟨.params (Value.ofDocument_eq_ok_iff.1 hd), .inr rfl, .inr rfl, .inl (.head _)⟩

theorem WritesMember.exists_put (h : r.WritesMember (some key, d)) {met : List String}
    (hnew : key ∉ met) (r' : Request) :
    ∃ next, shape.putMember r' met key d = .ok (next, key :: met) := by
  have hmet : ¬ met.contains key = true := by simpa using hnew
  have hput : ∃ field, field? key = some field ∧ ∃ next, field.put r' d = .ok next := by
    cases h with
    | method => exact ⟨_, rfl, _, rfl⟩
    | target h =>
      exact ⟨_, rfl, _, map_eq_ok_iff.2 ⟨r.target, TargetSpec.ofDocument_eq_ok_iff.2 h, rfl⟩⟩
    | params h => exact ⟨_, rfl, _, map_eq_ok_iff.2 ⟨r.params, Value.ofDocument_eq_ok_iff.2 h, rfl⟩⟩
  obtain ⟨field, hfind, next, hput⟩ := hput
  rw [Json.RecordShape.putMember_field hfind, if_neg hmet]
  exact ⟨next, bind_eq_ok_iff.2 ⟨next, hput, rfl⟩⟩

/-- Of the fields only the target may be told to be malformed. -/
theorem putMember_eq_malformed_iff (h : d.Sound) {met : List String} :
    shape.putMember r met key d = .error .malformed ↔
      key = "target" ∧ "target" ∉ met ∧ TargetSpec.Misread d := by
  constructor
  · intro hput
    cases hfind : field? key with
    | none =>
      rw [Json.RecordShape.putMember_unknown hfind] at hput
      cases hput
    | some field =>
      rw [Json.RecordShape.putMember_field hfind] at hput
      split at hput
      · cases hput
      rename_i hnew
      obtain ⟨rfl, hfield⟩ := of_field? hfind
      have hput := (bind_eq_error_iff.1 hput).resolve_right (by rintro ⟨next, -, ⟨⟩⟩)
      rcases hfield with rfl | rfl | rfl
      · exact absurd (map_eq_error_iff.1 hput) (Json.frank_asString h)
      · have hd := (TargetSpec.ofDocument_eq_malformed_iff h).1 (map_eq_error_iff.1 hput)
        exact ⟨rfl, by simpa [Json.Field.of] using hnew, hd⟩
      · exact absurd (map_eq_error_iff.1 hput) (Value.frank_ofDocument h)
  · rintro ⟨rfl, hnew, hd⟩
    have hmet : ¬ met.contains "target" = true := by simpa using hnew
    have hd := (TargetSpec.ofDocument_eq_malformed_iff h).2 hd
    rw [Json.RecordShape.putMember_field rfl, if_neg hmet]
    exact bind_eq_error_iff.2 (.inl (map_eq_error_iff.2 hd))

/-- **What the members are put into says what they say**, and keeps what none of them says. -/
theorem of_putMembers : ∀ {members : List (Option String × Document)} {r r' : Request}
    {met names : List String}, shape.putMembers r met members = .ok (r', names) →
      (∀ member ∈ members, r'.WritesMember member) ∧ (keys members).Nodup ∧
        (∀ key ∈ met, some key ∉ keys members) ∧ Keeps (keys members) r r' ∧
        ∀ key, key ∈ names ↔ key ∈ met ∨ some key ∈ keys members
  | [], r, _, met, _, h => by
    cases h
    exact ⟨nofun, .nil, fun _ _ => nofun, ⟨.inr rfl, .inr rfl, .inr rfl⟩, fun key => by simp [keys]⟩
  | (none, _) :: _, _, _, _, _, h => by cases h
  | (some key, d) :: members, r, r', met, names, h => by
    rw [Json.RecordShape.putMembers_cons] at h
    obtain ⟨⟨next, _⟩, hput, h⟩ := bind_eq_ok_iff.1 h
    obtain ⟨hnew, rfl, hwrites, hkeeps⟩ := of_putMember hput
    obtain ⟨heach, honce, hmet, hkept, hnames⟩ := of_putMembers h
    have hkey := hmet key (.head _)
    refine ⟨List.forall_mem_cons.2 ⟨hwrites.kept hkept hkey, heach⟩,
      List.nodup_cons.2 ⟨hkey, honce⟩, fun other hother => ?_, hkeeps.trans hkept, fun other => ?_⟩
    · have hne : other ≠ key := fun heq => hnew (heq ▸ hother)
      simpa [keys, hne] using hmet other (.tail _ hother)
    · rw [hnames other]
      simp [keys, or_assoc, or_left_comm]

/-- Members that each say what the request has are put into every record. -/
theorem exists_putMembers : ∀ {members : List (Option String × Document)} {r' : Request}
    {met : List String}, (∀ member ∈ members, r.WritesMember member) → (keys members).Nodup →
      (∀ key ∈ met, some key ∉ keys members) →
      ∃ next names, shape.putMembers r' met members = .ok (next, names)
  | [], _, _, _, _, _ => ⟨_, _, rfl⟩
  | (none, _) :: _, _, _, heach, _, _ => by cases heach _ (.head _)
  | (some key, d) :: members, r', met, heach, honce, hmet => by
    obtain ⟨hkey, honce⟩ := List.nodup_cons.1 honce
    have hnew : key ∉ met := fun h => hmet key h (.head _)
    have hmet : ∀ other ∈ key :: met, some other ∉ keys members :=
      List.forall_mem_cons.2 ⟨hkey, fun other hother h => hmet other hother (.tail _ h)⟩
    obtain ⟨next, hput⟩ := (heach _ (.head _)).exists_put hnew r'
    obtain ⟨last, names, hlast⟩ :=
      exists_putMembers (fun member h => heach member (.tail _ h)) honce hmet
    refine ⟨last, names, ?_⟩
    rw [Json.RecordShape.putMembers_cons]
    exact bind_eq_ok_iff.2 ⟨_, hput, hlast⟩

/-- **The members go on well up to a target whose fault counts as one of form.** -/
def Misread (members : List (Option String × Document)) : Prop :=
  ∃ before d after r, members = before ++ (some "target", d) :: after ∧
    (∀ member ∈ before, WritesMember r member) ∧ (keys before).Nodup ∧
    some "target" ∉ keys before ∧ TargetSpec.Misread d

theorem putMembers_eq_malformed_iff {members : List (Option String × Document)}
    {ending : Json.Ending} (h : (Document.object members ending).Sound) :
    shape.putMembers r [] members = .error .malformed ↔ Misread members := by
  rw [Json.RecordShape.putMembers_eq_error_iff fun member hmember => (h.of_mem hmember).1]
  constructor
  · rintro ⟨before, key, d, after, ⟨r', names⟩, rfl, hbefore, hput⟩
    have hsound := (h.of_mem (List.mem_append_right before (.head after))).2
    obtain ⟨rfl, hnew, hd⟩ := (putMember_eq_malformed_iff hsound).1 hput
    obtain ⟨heach, honce, -, -, hnames⟩ := of_putMembers hbefore
    exact ⟨before, d, after, r', rfl, heach, honce, fun h => hnew ((hnames _).2 (.inr h)), hd⟩
  · rintro ⟨before, d, after, r', rfl, heach, honce, hkey, hd⟩
    obtain ⟨last, names, hbefore⟩ := @exists_putMembers r' before r [] heach honce nofun
    obtain ⟨-, -, -, -, hnames⟩ := of_putMembers hbefore
    have hnew : "target" ∉ names := fun h => hkey (((hnames _).1 h).resolve_left nofun)
    have hsound := (h.of_mem (List.mem_append_right before (.head after))).2
    exact ⟨before, _, d, after, _, rfl, hbefore,
      (putMember_eq_malformed_iff hsound).2 ⟨rfl, hnew, hd⟩⟩

/-! ## Whole documents -/

theorem ofDocument_eq (d : Document) : ofDocument d = shape.decode d >>= fun result =>
    if result.2.contains "method" then .ok result.1 else .error (withoutMethod d) := rfl

theorem decode_object (members : List (Option String × Document)) :
    shape.decode (.object members .closed) = shape.putMembers shape.start [] members := by
  rw [Json.RecordShape.decode]
  cases shape.putMembers shape.start [] members <;> rfl

theorem ofDocument_object_eq_ok_iff {members : List (Option String × Document)} :
    ofDocument (.object members .closed) = .ok r ↔ r.HasMembers members := by
  rw [ofDocument_eq, decode_object, bind_eq_ok_iff]
  constructor
  · rintro ⟨⟨r', names⟩, hput, h⟩
    obtain ⟨heach, honce, -, hkeeps, hnames⟩ := of_putMembers hput
    split at h
    · rename_i hmethod
      cases h
      have hmem : "method" ∈ names := by simpa using hmethod
      exact ⟨heach, honce, ((hnames _).1 hmem).resolve_left nofun, hkeeps.target, hkeeps.params⟩
    · cases h
  · intro h
    obtain ⟨r', names, hput⟩ := @exists_putMembers r members shape.start [] h.each h.once nofun
    obtain ⟨heach, -, -, hkeeps, hnames⟩ := of_putMembers hput
    have hmethod : names.contains "method" = true := by simpa using (hnames _).2 (.inr h.method)
    have hmembers : r'.HasMembers members := ⟨heach, h.once, h.method, hkeeps.target, hkeeps.params⟩
    refine ⟨(r', names), hput, ?_⟩
    rw [if_pos hmethod, hmembers.unique h]

theorem decode_list (items : List Document) : shape.decode (.list items) =
    Json.RecordShape.putItems shape.start [] shape.fields items := by
  rw [Document.list, Json.RecordShape.decode]
  cases Json.RecordShape.putItems shape.start [] shape.fields items <;> rfl

theorem ofDocument_list_eq_ok_iff {items : List Document} :
    ofDocument (.list items) = .ok r ↔ r.Writes (.list items) := by
  rw [ofDocument_eq, decode_list, bind_eq_ok_iff]
  constructor
  · rintro ⟨⟨r', names⟩, hput, h⟩
    split at h
    case isFalse => cases h
    rename_i hmethod
    cases h
    match items with
    | [] =>
      cases hput
      cases hmethod
    | [x] =>
      simp only [shape, Json.RecordShape.putItems, Json.Field.of, bind_eq_ok_iff, map_eq_ok_iff,
        Json.asString_eq_ok_iff] at hput
      obtain ⟨_, ⟨method, rfl, rfl⟩, ⟨⟩⟩ := hput
      exact .method rfl rfl
    | [x, y] =>
      simp only [shape, Json.RecordShape.putItems, Json.Field.of, bind_eq_ok_iff, map_eq_ok_iff,
        Json.asString_eq_ok_iff, TargetSpec.ofDocument_eq_ok_iff] at hput
      obtain ⟨_, ⟨method, rfl, rfl⟩, _, ⟨target, htarget, rfl⟩, ⟨⟩⟩ := hput
      exact .target htarget rfl
    | [x, y, z] =>
      simp only [shape, Json.RecordShape.putItems, Json.Field.of, bind_eq_ok_iff, map_eq_ok_iff,
        Json.asString_eq_ok_iff, TargetSpec.ofDocument_eq_ok_iff, Value.ofDocument_eq_ok_iff] at hput
      obtain ⟨_, ⟨method, rfl, rfl⟩, _, ⟨target, htarget, rfl⟩, _, ⟨params, hparams, rfl⟩, ⟨⟩⟩ :=
        hput
      exact .params htarget hparams
    | _ :: _ :: _ :: _ :: _ =>
      simp only [shape, Json.RecordShape.putItems, bind_eq_ok_iff] at hput
      obtain ⟨_, -, _, -, _, -, ⟨⟩⟩ := hput
  · obtain ⟨method, target, params⟩ := r
    rintro (_ | ⟨rfl, rfl⟩ | ⟨htarget, rfl⟩ | ⟨htarget, hparams⟩)
    · exact ⟨_, rfl, rfl⟩
    · refine ⟨(⟨method, target, .empty⟩, ["target", "method"]), ?_, rfl⟩
      simp only [shape, Json.RecordShape.putItems, Json.Field.of, bind_eq_ok_iff, map_eq_ok_iff,
        TargetSpec.ofDocument_eq_ok_iff]
      exact ⟨_, ⟨method, rfl, rfl⟩, _, ⟨target, htarget, rfl⟩, rfl⟩
    · refine ⟨(⟨method, target, params⟩, ["params", "target", "method"]), ?_, rfl⟩
      simp only [shape, Json.RecordShape.putItems, Json.Field.of, bind_eq_ok_iff, map_eq_ok_iff,
        TargetSpec.ofDocument_eq_ok_iff, Value.ofDocument_eq_ok_iff]
      exact ⟨_, ⟨method, rfl, rfl⟩, _, ⟨target, htarget, rfl⟩, _, ⟨params, hparams, rfl⟩, rfl⟩

/-- **A request is read from what is written for it, and from nothing else.** -/
theorem ofDocument_eq_ok_iff {d : Document} : ofDocument d = .ok r ↔ r.Writes d := by
  match d with
  | .null | .bool _ | .number _ | .text _ | .broken => exact iff_of_false nofun nofun
  | .array items (.stopped next) | .object members (.stopped next) =>
    refine iff_of_false (fun h => ?_) nofun
    obtain ⟨result, hdecode, -⟩ := bind_eq_ok_iff.1 h
    obtain ⟨_, -, ⟨⟩⟩ := bind_eq_ok_iff.1 hdecode
  | .array items .closed => exact ofDocument_list_eq_ok_iff
  | .object members .closed =>
    rw [ofDocument_object_eq_ok_iff]
    constructor
    · exact .object
    · rintro ⟨h⟩
      exact h

theorem ofDocument_object_eq_malformed_iff {members : List (Option String × Document)}
    (h : (Document.object members .closed).Sound) :
    ofDocument (.object members .closed) = .error .malformed ↔ Misread members := by
  rw [ofDocument_eq, decode_object, bind_eq_error_iff, putMembers_eq_malformed_iff h]
  refine or_iff_left ?_
  rintro ⟨result, -, hmethod⟩
  split at hmethod <;> cases hmethod

/-- **A request that breaks off is only told to be invalid if it is so however it goes on.** -/
theorem steady_ofDocument : Json.Steady ofDocument := by
  have hfields : ∀ field ∈ shape.fields, ∀ r, Json.Steady (field.put r) := by
    intro field hfield r
    simp only [shape, List.mem_cons, List.not_mem_nil, or_false] at hfield
    rcases hfield with rfl | rfl | rfl
    · exact Json.steady_asString.map _
    · exact TargetSpec.steady_ofDocument.map _
    · exact Value.steady_ofDocument.map _
  intro d d' what h hwhat
  rw [ofDocument_eq, bind_eq_error_iff] at hwhat ⊢
  rcases hwhat with hwhat | ⟨result, hdecode, hwhat⟩
  · exact .inl (Json.RecordShape.decode_steady hfields h hwhat)
  · cases h with
    | same => exact .inr ⟨result, hdecode, hwhat⟩
    | broken => cases hdecode
    | array | object => obtain ⟨_, -, ⟨⟩⟩ := bind_eq_ok_iff.1 hdecode

end Request

end TorrentControl.Rpc
