import TorrentControl.Proofs.Json.Line
import TorrentControl.Proofs.ValueJson
import TorrentControl.Rpc.Arrival

/-! # One request and two lines

However a stream arrives, the request line is the same, and it is all of the stream that counts. The
reactor is called at most once, and what the client is sent is nothing or two lines of JSON. -/

namespace TorrentControl.Rpc

open Text.Utf8 (encodeText encodeText_append)

namespace Connection

/-! ## The first line -/

theorem firstLine_append_of_mem {bs : List UInt8} (h : lineBreak ∈ bs) (more : List UInt8) :
    firstLine (bs ++ more) = firstLine bs := by
  induction bs with
  | nil => cases h
  | cons b bs ih =>
    by_cases hb : b = lineBreak
    · simp [firstLine, hb]
    · have hrest := ih ((List.mem_cons.1 h).resolve_left (Ne.symm hb))
      simp only [firstLine] at hrest ⊢
      simp [hb, hrest]

theorem firstLine_append_of_not_mem {bs : List UInt8} (h : lineBreak ∉ bs) (more : List UInt8) :
    firstLine (bs ++ more) = bs ++ firstLine more := by
  induction bs with
  | nil => rfl
  | cons b bs ih =>
    rw [List.mem_cons, not_or] at h
    have hrest := ih h.2
    simp only [firstLine] at hrest ⊢
    simp [Ne.symm h.1, hrest]

theorem firstLine_length_le (bs : List UInt8) : (firstLine bs).length ≤ bs.length := by
  induction bs with
  | nil => exact Nat.le_refl _
  | cons b bs ih =>
    by_cases hb : b = lineBreak
    · simp [firstLine, hb]
    · simp only [firstLine] at ih ⊢
      simpa [hb] using ih

theorem firstLine_eq_nil_iff {bs : List UInt8} : firstLine bs = [] ↔ bs = [] := by
  cases bs with
  | nil => exact iff_of_true rfl rfl
  | cons b bs => by_cases hb : b = lineBreak <;> simp [firstLine, hb]

end Connection

namespace Arrival

open Connection (lineBreak lineLimit firstLine readLine)

/-! ## Reading from pieces -/

theorem bytes_putBack (bs : List UInt8) (later : Arrival) :
    (putBack bs later).bytes = bs ++ later.bytes := by
  cases bs <;> rfl

/-- A read takes bytes from the front of the stream. -/
theorem read_append_bytes (asked : Nat) (a : Arrival) :
    (a.read asked).1 ++ (a.read asked).2.bytes = a.bytes := by
  cases a with
  | nil => rfl
  | cons piece later =>
    rw [read, bytes_putBack, ← List.append_assoc, List.take_append_drop]
    rfl

/-- A read gets nothing only at the end of the stream. -/
theorem bytes_eq_nil_of_read {asked : Nat} {a : Arrival} (hasked : 0 < asked)
    (h : (a.read asked).1 = []) : a.bytes = [] := by
  cases a with
  | nil => rfl
  | cons piece later =>
    obtain ⟨n, rfl⟩ := Nat.exists_eq_succ_of_ne_zero (Nat.ne_of_gt hasked)
    cases h

theorem read_eq {asked : Nat} {a later : Arrival} {bs : List UInt8}
    (h : a.read asked = (bs, later)) : a.bytes = bs ++ later.bytes ∧ bs.length ≤ asked := by
  have hbytes := read_append_bytes asked a
  have hle := read_length_le asked a
  rw [h] at hbytes hle
  exact ⟨hbytes.symm, hle⟩

/-- **However the stream is split, the same line is read**, up to the room that there is for it. -/
theorem lineWithin_eq (room : Nat) (a : Arrival) :
    a.lineWithin room = (firstLine a.bytes).take room := by
  induction room, a using lineWithin.induct with
  | case1 room a later hread =>
    rw [lineWithin, hread]
    cases room with
    | zero => rfl
    | succ room =>
      have hasked : 0 < min bufferSize (room + 1) := Nat.lt_min.2 ⟨by decide, Nat.succ_pos room⟩
      rw [bytes_eq_nil_of_read hasked (by rw [hread])]
      rfl
  | case2 room a b bs later hread hbreak =>
    obtain ⟨hbytes, hle⟩ := read_eq hread
    have hroom : (firstLine (b :: bs)).length ≤ room :=
      (Connection.firstLine_length_le _).trans (hle.trans (Nat.min_le_right ..))
    rw [lineWithin, hread, hbytes, Connection.firstLine_append_of_mem hbreak,
      List.take_of_length_le hroom]
    exact if_pos hbreak
  | case3 room a b bs later hread hbreak ih =>
    obtain ⟨hbytes, hle⟩ := read_eq hread
    have hroom : (b :: bs).length ≤ room := hle.trans (Nat.min_le_right ..)
    rw [lineWithin, hread, hbytes, Connection.firstLine_append_of_not_mem hbreak, List.take_append,
      List.take_of_length_le hroom, ← ih]
    exact if_neg hbreak

/-- The request line is that of the whole stream. -/
theorem requestLine_eq (a : Arrival) : a.requestLine = readLine a.bytes := by
  have hempty : ((firstLine a.bytes).take (lineLimit + 1)).isEmpty = (firstLine a.bytes).isEmpty := by
    cases firstLine a.bytes <;> rfl
  rw [requestLine, readLine, lineWithin_eq, hempty]
  split
  · rfl
  · by_cases hlong : lineLimit < (firstLine a.bytes).length
    · have htaken : lineLimit < ((firstLine a.bytes).take (lineLimit + 1)).length := by
        rw [List.length_take]
        omega
      rw [if_pos htaken, if_pos hlong]
    · rw [List.take_of_length_le (by omega)]

end Arrival

namespace Connection

/-! ## Answering -/

/-- The request of a stream, or what the stream is answered if it has none. -/
def asked (stream : List UInt8) : Except (Option Outcome) Request :=
  match readLine stream with
  | .ok none => .error none
  | .error f => .error (some (.error f))
  | .ok (some line) => Except.mapError (fun f => some (.error f)) (Request.ofLine line)

theorem asked_congr {stream stream' : List UInt8} (h : firstLine stream = firstLine stream') :
    asked stream = asked stream' := by
  simp only [asked, readLine, h]

theorem asked_nil : asked [] = .error none :=
  rfl

theorem asked_long {stream : List UInt8} (h : lineLimit < (firstLine stream).length) :
    asked stream = .error (some (.error (.tooLarge lineLimit))) := by
  have hsome : (firstLine stream).isEmpty = false := by
    cases hline : firstLine stream with
    | nil =>
      rw [hline] at h
      cases h
    | cons => rfl
  simp [asked, readLine, hsome, h]

/-- A line that is not too long is read as a request, if it can be. -/
theorem asked_short {stream : List UInt8} (hne : stream ≠ [])
    (h : (firstLine stream).length ≤ lineLimit) :
    asked stream = Except.mapError (fun f => some (.error f)) (Request.ofLine (firstLine stream)) := by
  have hsome : (firstLine stream).isEmpty = false := by
    rw [List.isEmpty_eq_false_iff]
    exact fun hnil => hne (firstLine_eq_nil_iff.1 hnil)
  simp [asked, readLine, hsome, Nat.not_lt.2 h]

/-- What is answered without a request is an error, unless the stream is empty. -/
theorem early_of_asked {stream : List UInt8} {early : Option Outcome} (hne : stream ≠ [])
    (h : asked stream = .error early) : ∃ f, early = some (.error f) := by
  by_cases hshort : (firstLine stream).length ≤ lineLimit
  · rw [asked_short hne hshort] at h
    cases hline : Request.ofLine (firstLine stream) with
    | error f =>
      rw [hline] at h
      exact ⟨f, (Except.error.inj h).symm⟩
    | ok request =>
      rw [hline] at h
      cases h
  · rw [asked_long (Nat.not_le.1 hshort)] at h
    exact ⟨_, (Except.error.inj h).symm⟩

theorem toOption_asked (stream : List UInt8) : (asked stream).toOption =
    if (firstLine stream).length ≤ lineLimit then (Request.ofLine (firstLine stream)).toOption
    else none := by
  by_cases hnil : stream = []
  · subst hnil
    rfl
  · split
    · rename_i hshort
      rw [asked_short hnil hshort]
      cases Request.ofLine (firstLine stream) <;> rfl
    · rename_i hlong
      rw [asked_long (Nat.not_le.1 hlong)]
      rfl

section Handle

variable {m : Type → Type} [Monad m] [LawfulMonad m] (submit : Request → m Outcome)

/-- **A request is submitted once, and nothing else is.** -/
theorem handle_eq (a : Arrival) : handle submit a =
    match asked a.bytes with
    | .ok request => (fun outcome => encodeText (reply (some outcome))) <$> submit request
    | .error early => pure (encodeText (reply early)) := by
  simp only [handle, answer, asked, a.requestLine_eq]
  rcases readLine a.bytes with f | (_ | line)
  · simp
  · simp
  · cases hline : Request.ofLine line with
    | error f => simp [hline, Except.mapError]
    | ok request => simp [hline, Except.mapError]

end Handle

theorem serve_eq (r : Reactor) (stream : List UInt8) : serve r stream =
    match asked stream with
    | .ok request => (some (r.handle request).1, (r.handle request).2)
    | .error early => (early, r) := by
  simp only [asked, serve]
  rcases readLine stream with f | (_ | line)
  · rfl
  · rfl
  · cases hline : Request.ofLine line with
    | error f => simp only [Except.mapError, hline]
    | ok request => simp only [Except.mapError, hline]

end Connection

/-! ## Two lines -/

namespace Message

/-- The bytes of the line. -/
def bytes (m : Message) : List UInt8 :=
  encodeText m.toLine

theorem writable_toDocument (m : Message) : m.toDocument.Writable := by
  cases m with
  | result v => exact ⟨⟨rfl, rfl, rfl, v.writable_toDocument, trivial⟩, rfl⟩
  | error code message => exact ⟨⟨rfl, rfl, rfl, rfl, rfl, rfl, trivial⟩, rfl⟩
  | exit status => exact ⟨⟨rfl, rfl, rfl, Json.Numeral.wellFormed_ofInt status, trivial⟩, rfl⟩

end Message

/-- The bytes are a line of JSON and nothing else: no line break is in them, and they are read as the
document of the message. -/
structure Carries (line : List UInt8) (m : Message) : Prop where
  unbroken : Connection.lineBreak ∉ line
  reads {limit : Nat} (h : m.toDocument.nesting ≤ limit) :
    Json.Reading.ofBytes limit line = ⟨m.toDocument, true⟩

theorem Message.carries (m : Message) : Carries m.bytes m where
  unbroken := Json.Document.lineBreak_not_mem_render m.writable_toDocument
  reads h := by
    rw [bytes, toLine, encodeText, Json.Document.render, String.toList_ofList]
    exact Json.Reading.ofBytes_encode_write m.writable_toDocument h

/-- What is sent are two lines, of which the first one carries the message and the second one the exit
status. -/
def Responds (sent : List UInt8) (first : Message) (status : Nat) : Prop :=
  ∃ line last, sent = line ++ Connection.lineBreak :: (last ++ [Connection.lineBreak]) ∧
    Carries line first ∧ Carries last (.exit status)

theorem encodeText_reply {outcome : Outcome} {first last : Message}
    (h : outcome.messages = [first, last]) : encodeText (Connection.reply (some outcome)) =
      first.bytes ++ Connection.lineBreak :: (last.bytes ++ [Connection.lineBreak]) := by
  have hreply : Connection.reply (some outcome) =
      "" ++ first.toLine ++ "\n" ++ last.toLine ++ "\n" := by
    simp only [Connection.reply, Sink.writeOutcome, h]
    rfl
  have hbreak : encodeText "\n" = [Connection.lineBreak] := rfl
  rw [hreply]
  simp [encodeText_append, hbreak, Message.bytes]

theorem responds_of_messages {outcome : Outcome} {first : Message} {status : Nat}
    (h : outcome.messages = [first, .exit status]) :
    Responds (encodeText (Connection.reply (some outcome))) first status :=
  ⟨_, _, encodeText_reply h, first.carries, (Message.exit status).carries⟩

theorem Failure.exitStatus_ne_zero (f : Failure) : f.exitStatus ≠ 0 := by
  cases f <;> simp [exitStatus]

theorem responds_error (f : Failure) :
    Responds (encodeText (Connection.reply (some (.error f)))) (.error f.code f.message)
      f.exitStatus :=
  responds_of_messages rfl

/-- The exit status is zero where a result is told, and nowhere else. -/
theorem responds_outcome (outcome : Outcome) :
    (∃ v, Responds (encodeText (Connection.reply (some outcome))) (.result v) 0) ∨
      ∃ code message status, status ≠ 0 ∧
        Responds (encodeText (Connection.reply (some outcome))) (.error code message) status := by
  cases outcome with
  | ok v => exact .inl ⟨v, responds_of_messages rfl⟩
  | error f => exact .inr ⟨f.code, f.message, f.exitStatus, f.exitStatus_ne_zero, responds_error f⟩

/-! ## Exchanges -/

/-- What comes of a connection: the requests that the reactor was called with, what the client was
sent, and the state that the reactor was left in. -/
structure Exchange (σ : Type) where
  calls : List Request
  sent : List UInt8
  after : σ

section Exchange

variable {σ : Type} (reactor : Request → StateM σ Outcome) (s : σ)

/-- Calls the reactor and writes the call down. -/
def noting (request : Request) : StateM (List Request × σ) Outcome := fun (calls, s) =>
  let (outcome, after) := (reactor request).run s
  (outcome, calls ++ [request], after)

def exchange (a : Arrival) : Exchange σ :=
  let (sent, calls, after) := (Connection.handle (noting reactor) a).run ([], s)
  ⟨calls, sent, after⟩

theorem exchange_of_request {a : Arrival} {request : Request}
    (h : Connection.asked a.bytes = .ok request) : exchange reactor s a =
      ⟨[request], encodeText (Connection.reply (some ((reactor request).run s).1)),
        ((reactor request).run s).2⟩ := by
  rw [exchange, Connection.handle_eq, h]
  rfl

theorem exchange_of_none {a : Arrival} {early : Option Outcome}
    (h : Connection.asked a.bytes = .error early) :
    exchange reactor s a = ⟨[], encodeText (Connection.reply early), s⟩ := by
  rw [exchange, Connection.handle_eq, h]
  rfl

theorem calls_exchange (a : Arrival) :
    (exchange reactor s a).calls = (Connection.asked a.bytes).toOption.toList := by
  cases h : Connection.asked a.bytes with
  | error early => rw [exchange_of_none reactor s h]; rfl
  | ok request => rw [exchange_of_request reactor s h]; rfl

/-- With the reactor of the daemon, the exchange is what the daemon serves. -/
theorem exchange_handle (r : Reactor) (a : Arrival) :
    exchange (fun request r => r.handle request) r a =
      ⟨(Connection.asked a.bytes).toOption.toList,
        encodeText (Connection.reply (Connection.serve r a.bytes).1),
        (Connection.serve r a.bytes).2⟩ := by
  rw [Connection.serve_eq]
  cases hasked : Connection.asked a.bytes with
  | ok request =>
    rw [exchange_of_request _ _ hasked]
    rfl
  | error early =>
    rw [exchange_of_none _ _ hasked]
    rfl

/-- A stream that is not empty is answered an outcome. -/
theorem exists_sent {a : Arrival} (h : a.bytes ≠ []) : ∃ outcome : Outcome,
    (exchange reactor s a).sent = encodeText (Connection.reply (some outcome)) := by
  cases hasked : Connection.asked a.bytes with
  | ok request => exact ⟨_, congrArg Exchange.sent (exchange_of_request reactor s hasked)⟩
  | error early =>
    obtain ⟨f, rfl⟩ := Connection.early_of_asked h hasked
    refine ⟨.error f, ?_⟩
    rw [exchange_of_none reactor s hasked]

end Exchange

end TorrentControl.Rpc
