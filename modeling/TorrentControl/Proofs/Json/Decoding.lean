import TorrentControl.Json.Record
import TorrentControl.Proofs.Json.Document
import TorrentControl.Proofs.Outcome
import TorrentControl.Proofs.ValueReading

/-! # What decoders answer

A decoder has two complaints: that a text is not JSON, and that it is JSON of another shape. The
second one is steady: a text that breaks off or goes wrong is read up to that place, and if the
decoder complains about the shape of what was read, it complains so about every document that begins
like this. And the first one is not made about a document that was read whole and whose numbers are
in range. -/

namespace TorrentControl.Json

open Outcome

variable {α β σ : Type}

/-! ## Single values -/

theorem asString_eq_ok_iff {d : Document} {s : String} : d.asString = .ok s ↔ d = .string s := by
  unfold Document.asString
  split
  · simp [Document.string]
  · rename_i hne
    exact iff_of_false nofun (hne s)

theorem asInteger_eq_ok_iff {name : String} {least greatest i : Int} {d : Document} :
    Document.asInteger name least greatest d = .ok i ↔
      ∃ n, d = .number n ∧ n.value = .integer i ∧ least ≤ i ∧ i ≤ greatest := by
  unfold Document.asInteger
  split
  · rename_i n
    simp only [Document.number.injEq, exists_eq_left']
    split
    · rename_i j hvalue
      split
      · rename_i hrange
        simp only [Except.ok.injEq, hvalue, NumeralValue.integer.injEq]
        exact ⟨fun h => ⟨h, h ▸ hrange⟩, fun h => h.1⟩
      · rename_i hrange
        rw [hvalue]
        refine iff_of_false nofun ?_
        rintro ⟨⟨⟩, h⟩
        exact hrange h
    · rename_i hne
      exact iff_of_false nofun fun h => hne i h.1
  · rename_i hne
    refine iff_of_false nofun ?_
    rintro ⟨n, rfl, -⟩
    exact hne n rfl

/-! ## Documents that begin alike -/

mutual
/-- The second document goes on where the first one breaks off. An object of which no key was read
begins others only if nothing else stands in the place of the key. -/
inductive Begins : Document → Document → Prop where
  | same {d : Document} : Begins d d
  | broken {d : Document} : Begins .broken d
  | array {items items' : List Document} {next : Option Token} (h : BeginsItems items items') :
      Begins (.array items (.stopped next)) (.array items' .closed)
  | object {members members' : List (Option String × Document)} {next : Option Token}
      (hkey : members = [] → next ∈ [none, some .fault]) (h : BeginsMembers members members') :
      Begins (.object members (.stopped next)) (.object members' .closed)

/-- Only the last of the items that were read may break off. -/
inductive BeginsItems : List Document → List Document → Prop where
  | nil {more : List Document} : BeginsItems [] more
  | last {d d' : Document} {more : List Document} (h : Begins d d') : BeginsItems [d] (d' :: more)
  | cons {d : Document} {items items' : List Document} (h : BeginsItems items items') :
      BeginsItems (d :: items) (d :: items')

inductive BeginsMembers :
    List (Option String × Document) → List (Option String × Document) → Prop where
  | nil {more : List (Option String × Document)} : BeginsMembers [] more
  | last {key : Option String} {d d' : Document} {more : List (Option String × Document)}
      (h : Begins d d') : BeginsMembers [(key, d)] ((key, d') :: more)
  | cons {member : Option String × Document} {members members' : List (Option String × Document)}
      (h : BeginsMembers members members') : BeginsMembers (member :: members) (member :: members')
end

theorem BeginsMembers.head {key : Option String} {d : Document}
    {members members' : List (Option String × Document)}
    (h : BeginsMembers ((key, d) :: members) members') :
    ∃ d' more, members' = (key, d') :: more ∧ Begins d d' := by
  cases h with
  | last hd => exact ⟨_, _, rfl, hd⟩
  | cons => exact ⟨_, _, rfl, .same⟩

/-- What is invalid stays invalid, and for the same reason, whatever it goes on with. -/
def Steady (decode : Document → Decoded α) : Prop :=
  ∀ ⦃d d' : Document⦄ ⦃what : Invalid⦄, Begins d d' → decode d = .error (.invalid what) →
    decode d' = .error (.invalid what)

theorem Steady.map {decode : Document → Decoded α} (h : Steady decode) (f : α → β) :
    Steady fun d => f <$> decode d :=
  fun _ _ _ hd hwhat => map_eq_error_iff.2 (h hd (map_eq_error_iff.1 hwhat))

/-- A decoder is steady that looks at the kind of an array or object only, and that takes what broke
off before its first token for no JSON. -/
theorem Steady.of_kind {decode : Document → Decoded α}
    (hbroken : ∀ what, decode .broken ≠ .error (.invalid what))
    (harray : ∀ items items' ending ending', decode (.array items ending) =
      decode (.array items' ending'))
    (hobject : ∀ members members' ending ending', decode (.object members ending) =
      decode (.object members' ending')) : Steady decode := by
  intro d d' what h hwhat
  cases h with
  | same => exact hwhat
  | broken => exact absurd hwhat (hbroken what)
  | array => rwa [harray] at hwhat
  | object => rwa [hobject] at hwhat

theorem steady_asString : Steady Document.asString :=
  .of_kind nofun (fun _ _ _ _ => rfl) fun _ _ _ _ => rfl

theorem steady_asInteger (name : String) (least greatest : Int) :
    Steady (Document.asInteger name least greatest) :=
  .of_kind nofun (fun _ _ _ _ => rfl) fun _ _ _ _ => rfl

/-! ## Records -/

namespace RecordShape

variable {shape : RecordShape σ}

theorem putItems_nil (record : σ) (met : List String) (fields : List (Field σ)) :
    putItems record met fields [] = .ok (record, met) := by
  cases fields <;> rfl

/-- Items are put one after another, so that the first one that is refused decides. -/
theorem putItems_steady {what : Invalid} : ∀ {fields : List (Field σ)} {record : σ}
    {met : List String} {items items' : List Document},
      (∀ field ∈ fields, ∀ record, Steady (field.put record)) → BeginsItems items items' →
        putItems record met fields items = .error (.invalid what) →
          putItems record met fields items' = .error (.invalid what)
  | _, _, _, _, _, _, .nil, h => by
    rw [putItems_nil] at h
    cases h
  | [], _, _, _, _, _, .last _, h | [], _, _, _, _, _, .cons _, h => by cases h
  | field :: fields, record, met, _, _, hsteady, .last hd, h => by
    rw [putItems, bind_eq_error_iff] at h ⊢
    rcases h with h | ⟨next, -, h⟩
    · exact .inl (hsteady field (.head _) record hd h)
    · rw [putItems_nil] at h
      cases h
  | field :: fields, record, met, _, _, hsteady, .cons hitems, h => by
    rw [putItems, bind_eq_error_iff] at h ⊢
    refine h.imp_right fun ⟨next, hput, h⟩ => ⟨next, hput, ?_⟩
    exact putItems_steady (fun field hfield => hsteady field (.tail _ hfield)) hitems h

/-- What one member makes of the record and of the names that were met. -/
def putMember (shape : RecordShape σ) (record : σ) (met : List String) (key : String)
    (d : Document) : Decoded (σ × List String) :=
  match shape.fields.find? fun field => field.name == key with
  | some field =>
    if met.contains key then .error (.invalid (.duplicateField key))
    else field.put record d >>= fun next => .ok (next, key :: met)
  | none =>
    if shape.refusesUnknown then
      .error (.invalid (.unknownField key (shape.fields.map Field.name)))
    else if d.isComplete then .ok (record, met) else .error .malformed

theorem putMember_field {record : σ} {met : List String} {key : String} {d : Document}
    {field : Field σ} (h : shape.fields.find? (fun field => field.name == key) = some field) :
    shape.putMember record met key d =
      if met.contains key then .error (.invalid (.duplicateField key))
      else field.put record d >>= fun next => .ok (next, key :: met) := by
  simp only [putMember, h]

theorem putMember_unknown {record : σ} {met : List String} {key : String} {d : Document}
    (h : shape.fields.find? (fun field => field.name == key) = none) :
    shape.putMember record met key d =
      if shape.refusesUnknown then
        .error (.invalid (.unknownField key (shape.fields.map Field.name)))
      else if d.isComplete then .ok (record, met) else .error .malformed := by
  simp only [putMember, h]

/-- **Members are put one after another.** -/
theorem putMembers_cons {record : σ} {met : List String} {key : String} {d : Document}
    {members : List (Option String × Document)} :
    shape.putMembers record met ((some key, d) :: members) =
      shape.putMember record met key d >>= fun next => shape.putMembers next.1 next.2 members := by
  cases hfind : shape.fields.find? fun field => field.name == key with
  | some field =>
    rw [putMember_field hfind]
    simp only [putMembers, hfind]
    split
    · rfl
    · cases field.put record d <;> rfl
  | none =>
    rw [putMember_unknown hfind]
    simp only [putMembers, hfind]
    split
    · rfl
    · split <;> rfl

theorem putMembers_append {rest : List (Option String × Document)} :
    ∀ {members : List (Option String × Document)} {record : σ} {met : List String},
      shape.putMembers record met (members ++ rest) =
        shape.putMembers record met members >>= fun next => shape.putMembers next.1 next.2 rest
  | [], _, _ => rfl
  | (none, _) :: _, _, _ => rfl
  | (some key, d) :: members, record, met => by
    rw [List.cons_append, putMembers_cons, putMembers_cons]
    cases shape.putMember record met key d with
    | error => rfl
    | ok next => exact putMembers_append

/-- Of members whose keys were read, what is told is the fault of the first one that is refused. -/
theorem putMembers_eq_error_iff {problem : Problem} :
    ∀ {members : List (Option String × Document)} {record : σ} {met : List String},
      (∀ member ∈ members, member.1.isSome = true) →
        (shape.putMembers record met members = .error problem ↔
          ∃ before key d after next, members = before ++ (some key, d) :: after ∧
            shape.putMembers record met before = .ok next ∧
            shape.putMember next.1 next.2 key d = .error problem)
  | [], _, _, _ => by
    refine iff_of_false nofun ?_
    rintro ⟨before, key, d, after, next, hmembers, -⟩
    cases List.append_eq_nil_iff.1 hmembers.symm |>.2
  | (none, _) :: _, _, _, hkeys => by cases hkeys _ (.head _)
  | (some key, d) :: members, record, met, hkeys => by
    have hrest {record : σ} {met : List String} :=
      @putMembers_eq_error_iff problem members record met fun member h => hkeys member (.tail _ h)
    rw [putMembers_cons, bind_eq_error_iff]
    constructor
    · rintro (hput | ⟨next, hput, h⟩)
      · exact ⟨[], key, d, members, (record, met), rfl, rfl, hput⟩
      · obtain ⟨before, key', d', after, last, rfl, hbefore, hlast⟩ := hrest.1 h
        refine ⟨(some key, d) :: before, key', d', after, last, rfl, ?_, hlast⟩
        rw [putMembers_cons]
        exact bind_eq_ok_iff.2 ⟨next, hput, hbefore⟩
    · rintro ⟨before, key', d', after, last, hmembers, hbefore, hlast⟩
      cases before with
      | nil =>
        cases hmembers
        cases hbefore
        exact .inl hlast
      | cons first before =>
        obtain ⟨rfl, rfl⟩ := List.cons.inj hmembers
        rw [putMembers_cons] at hbefore
        obtain ⟨next, hput, hbefore⟩ := bind_eq_ok_iff.1 hbefore
        exact .inr ⟨next, hput, hrest.2 ⟨before, key', d', after, last, rfl, hbefore, hlast⟩⟩

theorem putMember_steady (hsteady : ∀ field ∈ shape.fields, ∀ record, Steady (field.put record))
    {record : σ} {met : List String} {key : String} {d d' : Document} {what : Invalid}
    (hd : Begins d d') (h : shape.putMember record met key d = .error (.invalid what)) :
    shape.putMember record met key d' = .error (.invalid what) := by
  cases hfind : shape.fields.find? fun field => field.name == key with
  | some field =>
    rw [putMember_field hfind] at h ⊢
    split at h
    · rwa [if_pos ‹_›]
    · rw [if_neg ‹_›]
      rw [bind_eq_error_iff] at h ⊢
      rcases h with h | ⟨next, -, h⟩
      · exact .inl (hsteady field (List.mem_of_find?_eq_some hfind) record hd h)
      · cases h
  | none =>
    rw [putMember_unknown hfind] at h ⊢
    split at h
    · rwa [if_pos ‹_›]
    · split at h <;> cases h

theorem putMembers_steady (hsteady : ∀ field ∈ shape.fields, ∀ record, Steady (field.put record))
    {what : Invalid} : ∀ {record : σ} {met : List String}
      {members members' : List (Option String × Document)}, BeginsMembers members members' →
        shape.putMembers record met members = .error (.invalid what) →
          shape.putMembers record met members' = .error (.invalid what)
  | _, _, _, _, .nil, h => by cases h
  | record, met, (none, _) :: _, _, _, h => by cases h
  | record, met, (some key, _) :: _, _, .last hd, h => by
    rw [putMembers_cons, bind_eq_error_iff] at h ⊢
    rcases h with h | ⟨next, -, h⟩
    · exact .inl (putMember_steady hsteady hd h)
    · cases h
  | record, met, (some key, d) :: _, _, .cons hmembers, h => by
    rw [putMembers_cons, bind_eq_error_iff] at h ⊢
    exact h.imp_right fun ⟨next, hput, h⟩ => ⟨next, hput, putMembers_steady hsteady hmembers h⟩

/-- **A record is steady if its fields are.** -/
theorem decode_steady (hsteady : ∀ field ∈ shape.fields, ∀ record, Steady (field.put record)) :
    Steady shape.decode := by
  intro d d' what h hwhat
  cases h with
  | same => exact hwhat
  | broken => cases hwhat
  | array hitems =>
    rw [decode, bind_eq_error_iff] at hwhat ⊢
    rcases hwhat with hwhat | ⟨result, -, hwhat⟩
    · exact .inl (putItems_steady hsteady hitems hwhat)
    · cases hwhat
  | object _ hmembers =>
    rw [decode, bind_eq_error_iff] at hwhat ⊢
    rcases hwhat with hwhat | ⟨result, -, hwhat⟩
    · exact .inl (putMembers_steady hsteady hmembers hwhat)
    · cases hwhat

end RecordShape

/-! ## Documents without a fault of form -/

/-- The document was read whole, and its numbers are in range. -/
structure Document.Sound (d : Document) : Prop where
  writable : d.Writable
  inRange : ∀ n ∈ d.numerals, n.value ≠ .outOfRange

/-- Of a document without a fault of form no such fault is told. -/
def Frank (decode : Document → Decoded α) : Prop :=
  ∀ ⦃d : Document⦄, d.Sound → decode d ≠ .error .malformed

namespace Document

theorem Sound.cons {d : Document} {items : List Document} {ending : Ending}
    (h : (array (d :: items) ending).Sound) : d.Sound ∧ (array items ending).Sound :=
  ⟨⟨h.writable.1.1, fun n hn => h.inRange n (List.mem_append_left _ hn)⟩,
    ⟨⟨h.writable.1.2, h.writable.2⟩, fun n hn => h.inRange n (List.mem_append_right _ hn)⟩⟩

theorem Sound.member {key : Option String} {d : Document} {members : List (Option String × Document)}
    {ending : Ending} (h : (object ((key, d) :: members) ending).Sound) :
    key.isSome ∧ d.Sound ∧ (object members ending).Sound :=
  ⟨h.writable.1.1, ⟨h.writable.1.2.1, fun n hn => h.inRange n (List.mem_append_left _ hn)⟩,
    ⟨h.writable.1.2.2, h.writable.2⟩, fun n hn => h.inRange n (List.mem_append_right _ hn)⟩

theorem Sound.of_mem {key : Option String} {d : Document} {ending : Ending} :
    ∀ {members : List (Option String × Document)}, (object members ending).Sound →
      (key, d) ∈ members → key.isSome ∧ d.Sound
  | _ :: _, h, .head _ => ⟨h.member.1, h.member.2.1⟩
  | _ :: _, h, .tail _ hd => h.member.2.2.of_mem hd

theorem Sound.unexpected {d : Document} (h : d.Sound) (expected : String) :
    d.unexpected expected ≠ .malformed := by
  intro hwhat
  cases d with
  | null | bool | array | object => cases hwhat
  | broken => exact h.writable.elim
  | text content =>
    obtain ⟨s, rfl⟩ := Option.isSome_iff_exists.1 h.writable
    cases hwhat
  | number n =>
    rw [Document.unexpected] at hwhat
    split at hwhat
    · cases hwhat
    · cases hwhat
    · exact absurd ‹_› (h.inRange n (.head _))

end Document

theorem frank_asString : Frank Document.asString := by
  intro d h hwhat
  unfold Document.asString at hwhat
  split at hwhat
  · cases hwhat
  · exact h.unexpected _ (Except.error.inj hwhat)

theorem frank_asInteger (name : String) (least greatest : Int) :
    Frank (Document.asInteger name least greatest) := by
  intro d h hwhat
  unfold Document.asInteger at hwhat
  split at hwhat
  · split at hwhat
    · split at hwhat <;> cases hwhat
    · exact h.unexpected _ (Except.error.inj hwhat)
  · exact h.unexpected _ (Except.error.inj hwhat)

theorem Frank.map {decode : Document → Decoded α} (h : Frank decode) (f : α → β) :
    Frank fun d => f <$> decode d :=
  fun _ hd hwhat => h hd (map_eq_error_iff.1 hwhat)

end TorrentControl.Json

/-! ## Values -/

namespace TorrentControl.Value

open Json Outcome

mutual
theorem ofDocument_steady {what : Invalid} : ∀ {d d' : Document}, Begins d d' →
    ofDocument d = .error (.invalid what) → ofDocument d' = .error (.invalid what)
  | _, _, .same, h => h
  | _, _, .broken, h => by cases h
  | _, _, .array hitems, h => by
    rw [ofDocument, bind_eq_error_iff] at h ⊢
    rcases h with h | ⟨values, -, h⟩
    · exact .inl (ofDocuments_steady hitems h)
    · cases h
  | _, _, .object _ hmembers, h => by
    rw [ofDocument, bind_eq_error_iff] at h ⊢
    rcases h with h | ⟨entries, -, h⟩
    · exact .inl (ofMembers_steady hmembers h)
    · cases h

theorem ofDocuments_steady {what : Invalid} : ∀ {items items' : List Document},
    BeginsItems items items' → ofDocuments items = .error (.invalid what) →
      ofDocuments items' = .error (.invalid what)
  | _, _, .nil, h => by cases h
  | _, _, .last hd, h => by
    rw [ofDocuments, bind_eq_error_iff] at h ⊢
    rcases h with h | ⟨v, -, h⟩
    · exact .inl (ofDocument_steady hd h)
    · cases h
  | _, _, .cons hitems, h => by
    rw [ofDocuments, bind_eq_error_iff] at h ⊢
    refine h.imp_right fun ⟨v, hv, h⟩ => ⟨v, hv, ?_⟩
    rw [bind_eq_error_iff] at h ⊢
    rcases h with h | ⟨vs, -, h⟩
    · exact .inl (ofDocuments_steady hitems h)
    · cases h

theorem ofMembers_steady {what : Invalid} : ∀ {members members' : List (Option String × Document)},
    BeginsMembers members members' → ofMembers members = .error (.invalid what) →
      ofMembers members' = .error (.invalid what)
  | _, _, .nil, h => by cases h
  | (none, _) :: _, _, _, h => by cases h
  | (some key, _) :: _, _, .last hd, h => by
    rw [ofMembers, bind_eq_error_iff] at h ⊢
    rcases h with h | ⟨v, -, h⟩
    · exact .inl (ofDocument_steady hd h)
    · cases h
  | (some key, _) :: _, _, .cons hmembers, h => by
    rw [ofMembers, bind_eq_error_iff] at h ⊢
    refine h.imp_right fun ⟨v, hv, h⟩ => ⟨v, hv, ?_⟩
    rw [bind_eq_error_iff] at h ⊢
    rcases h with h | ⟨entries, -, h⟩
    · exact .inl (ofMembers_steady hmembers h)
    · cases h
end

theorem steady_ofDocument : Steady ofDocument :=
  fun _ _ _ h => ofDocument_steady h

theorem frank_ofNumeral {n : Numeral} (h : n.value ≠ .outOfRange) :
    ofNumeral n ≠ .error .malformed := by
  unfold ofNumeral
  split
  · split <;> nofun
  · nofun
  · exact absurd ‹_› h

mutual
theorem ofDocument_frank : ∀ {d : Document}, d.Sound → ofDocument d ≠ .error .malformed
  | .null, _ | .bool _, _ => nofun
  | .number n, h => frank_ofNumeral (h.inRange n (.head _))
  | .text (some _), _ => nofun
  | .array items ending, h => by
    intro hwhat
    rw [ofDocument, bind_eq_error_iff] at hwhat
    rcases hwhat with hwhat | ⟨values, -, hwhat⟩
    · exact ofDocuments_frank h hwhat
    · rw [h.writable.2] at hwhat
      cases hwhat
  | .object members ending, h => by
    intro hwhat
    rw [ofDocument, bind_eq_error_iff] at hwhat
    rcases hwhat with hwhat | ⟨entries, -, hwhat⟩
    · exact ofMembers_frank h hwhat
    · rw [h.writable.2] at hwhat
      cases hwhat

theorem ofDocuments_frank : ∀ {items : List Document} {ending : Ending},
    (Document.array items ending).Sound → ofDocuments items ≠ .error .malformed
  | [], _, _ => nofun
  | d :: items, ending, h => by
    intro hwhat
    rw [ofDocuments, bind_eq_error_iff] at hwhat
    rcases hwhat with hwhat | ⟨v, -, hwhat⟩
    · exact ofDocument_frank h.cons.1 hwhat
    · rw [bind_eq_error_iff] at hwhat
      rcases hwhat with hwhat | ⟨vs, -, hwhat⟩
      · exact ofDocuments_frank h.cons.2 hwhat
      · cases hwhat

theorem ofMembers_frank : ∀ {members : List (Option String × Document)} {ending : Ending},
    (Document.object members ending).Sound → ofMembers members ≠ .error .malformed
  | [], _, _ => nofun
  | (none, _) :: _, _, h => by cases h.member.1
  | (some key, d) :: members, ending, h => by
    intro hwhat
    rw [ofMembers, bind_eq_error_iff] at hwhat
    rcases hwhat with hwhat | ⟨v, -, hwhat⟩
    · exact ofDocument_frank h.member.2.1 hwhat
    · rw [bind_eq_error_iff] at hwhat
      rcases hwhat with hwhat | ⟨entries, -, hwhat⟩
      · exact ofMembers_frank h.member.2.2 hwhat
      · cases hwhat
end

theorem frank_ofDocument : Frank ofDocument :=
  fun _ h => ofDocument_frank h

end TorrentControl.Value
