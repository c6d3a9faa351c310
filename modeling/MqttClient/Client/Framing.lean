/-
# Packets as the network delivered them

The trace of a run records every read.  `receptions` groups the reads by the call
of `readPacket` that made them, and `Frame.readLogs` are the reads of a packet
that arrived completely: its header byte, its length field byte by byte, and its
body in one piece.  `readPacket_cases` says everything `readPacket` can do; in
particular a positive result means that the read buffer holds a frame with the
length that was decoded, whether or not the length field was ever finished.
-/

import Mathlib.Tactic.Ring
import MqttClient.Client.Effects

namespace MqttClient

open Semantics Program

variable {σ H : Type} {P : Platform σ} {fuel : Nat}

/-! ## Frames and their reads -/

/-- A complete packet: a header byte, a length field that ends within four bytes,
and a body of the announced length. -/
structure Frame where
  header : UInt8
  field : List UInt8
  body : List UInt8
  terminates : Terminates field
  field_le : field.length ≤ 4
  value_eq : lengthValue field = body.length

/-- The packet with the shortest length field for its body. -/
def Frame.ofBody (header : UInt8) (body : List UInt8) (h : body.length < 268435456) : Frame where
  header := header
  field := mqttPacketEncode body.length
  body := body
  terminates := terminates_mqttPacketEncode h
  field_le := mqttPacketEncode_length_le h
  value_eq := lengthValue_mqttPacketEncode h

/-- The packet type in the header byte. -/
def Frame.type (F : Frame) : Nat := (MQTTHeader.ofByte F.header).type

/-- The bytes of the packet on the wire. -/
def Frame.bytes (F : Frame) : List UInt8 := F.header :: (F.field ++ F.body)

/-- The bytes determine the packet. -/
theorem Frame.bytes_injective : Function.Injective Frame.bytes := by
  rintro ⟨header, field, body, hterm, _, _⟩ ⟨header', field', body', hterm', _, _⟩ h
  obtain ⟨rfl, hrest⟩ := List.cons.inj h
  obtain ⟨rfl, rfl⟩ := hterm.append_inj hterm' hrest
  rfl

/-- The read of one byte that succeeded. -/
def byteLog (b : UInt8) : ReadLog := ⟨1, 1, [b]⟩

/-- The read of a body that succeeded; an empty body is not read. -/
def bodyLog (body : List UInt8) : List ReadLog :=
  if body = [] then [] else [⟨body.length, body.length, body⟩]

/-- The reads of a packet that arrived completely. -/
def Frame.readLogs (F : Frame) : List ReadLog :=
  byteLog F.header :: (F.field.map byteLog ++ bodyLog F.body)

theorem Frame.body_length_lt (F : Frame) : F.body.length < 268435456 := by
  rw [← F.value_eq]
  exact lengthValue_lt_of_length_le F.field_le

theorem byteLog_injective {a b : UInt8} (h : byteLog a = byteLog b) : a = b := by
  simpa [byteLog] using h

theorem bodyLog_injective {a b : List UInt8} (h : bodyLog a = bodyLog b) : a = b := by
  unfold bodyLog at h
  split at h <;> split at h <;> simp_all

/-- How the loop over the length field may end when `left` bytes are allowed:
`field` are the bytes it got, `cut` the read that failed, if one did. -/
inductive LengthRead : (left : Nat) → (field : List UInt8) → (cut : List ReadLog) → Prop
  | last {left : Nat} {b : UInt8} (hlast : b.toNat < 128) : LengthRead (left + 1) [b] []
  | more {left : Nat} {b : UInt8} {field : List UInt8} {cut : List ReadLog}
      (hmore : 128 ≤ b.toNat) (rest : LengthRead left field cut) :
      LengthRead (left + 1) (b :: field) cut
  | bad : LengthRead 0 [] []
  | failed {left : Nat} {log : ReadLog} (hrc : log.rc ≠ 1) : LengthRead (left + 1) [] [log]

namespace LengthRead

variable {left : Nat} {field : List UInt8} {cut : List ReadLog}

theorem length_le (h : LengthRead left field cut) : field.length ≤ left := by
  induction h with
  | last => simp
  | more _ _ ih => simpa using ih
  | bad => simp
  | failed => simp

/-- A field that ends in time is read to its end. -/
theorem of_terminates : ∀ {left : Nat} {field : List UInt8}, Terminates field →
    field.length ≤ left → LengthRead left field []
  | _, [], hterm, _ => hterm.elim
  | 0, _ :: _, _, hle => absurd hle (by simp)
  | left + 1, b :: rest, hterm, hle => by
      by_cases hlast : b.toNat < 128
      · obtain rfl := (terminates_cons_of_lt hlast).mp hterm
        exact .last hlast
      · have hmore : 128 ≤ b.toNat := Nat.le_of_not_lt hlast
        exact .more hmore
          (of_terminates ((terminates_cons_of_ge hmore).mp hterm) (by simpa using hle))

/-- The reads determine the bytes of the field, where it was cut off, and the body. -/
theorem eq_of_append_eq (h : LengthRead left field cut) {body : List UInt8} :
    ∀ {field' body' : List UInt8} {cut' : List ReadLog}, LengthRead left field' cut' →
      field.map byteLog ++ cut ++ bodyLog body = field'.map byteLog ++ cut' ++ bodyLog body' →
      field = field' ∧ cut = cut' ∧ body = body' := by
  -- each byte decides whether the field goes on and a failed read shows in its
  -- record, so the two loops stay in step
  induction h with
  | last hlast =>
      rintro _ body' _ (hlast' | ⟨hmore, _⟩ | _ | hrc) heq
      · obtain ⟨hb, hrest⟩ := List.cons.inj heq
        exact ⟨by rw [byteLog_injective hb], rfl, bodyLog_injective hrest⟩
      · rw [byteLog_injective (List.cons.inj heq).1] at hlast
        omega
      · exact absurd (congrArg ReadLog.rc (List.cons.inj heq).1.symm) hrc
  | more hmore _ ih =>
      rintro _ body' _ (hlast | ⟨_, hrest⟩ | _ | hrc) heq
      · rw [byteLog_injective (List.cons.inj heq).1] at hmore
        omega
      · obtain ⟨hb, htail⟩ := List.cons.inj heq
        obtain ⟨rfl, hcut, hbody⟩ := ih hrest htail
        exact ⟨by rw [byteLog_injective hb], hcut, hbody⟩
      · exact absurd (congrArg ReadLog.rc (List.cons.inj heq).1.symm) hrc
  | bad =>
      rintro _ body' _ ⟨⟩ heq
      exact ⟨rfl, rfl, bodyLog_injective heq⟩
  | failed hrc =>
      rintro _ body' _ (hlast | ⟨hmore, _⟩ | _ | _) heq
      · exact absurd (congrArg ReadLog.rc (List.cons.inj heq).1) hrc
      · exact absurd (congrArg ReadLog.rc (List.cons.inj heq).1) hrc
      · obtain ⟨hlog, hrest⟩ := List.cons.inj heq
        exact ⟨rfl, by rw [hlog], bodyLog_injective hrest⟩

theorem cut_eq_nil_of_terminates (h : LengthRead left field cut) (hterm : Terminates field) :
    cut = [] := by
  induction h with
  | last => rfl
  | more hmore _ ih => exact ih ((terminates_cons_of_ge hmore).mp hterm)
  | bad => rfl
  | failed => exact hterm.elim

end LengthRead

/-! ## Receptions -/

/-- One call of `readPacket`: its result and the reads it made. -/
structure Reception where
  rc : Int
  reads : List ReadLog
  deriving DecidableEq, Repr

/-- Group the reads of a trace by the call of `readPacket` that made them: the
finished calls, and the reads since the last one. -/
def receptionsFrom (pending : List ReadLog) : List (Event H) → List Reception × List ReadLog
  | [] => ([], pending)
  | .read log :: trace => receptionsFrom (pending ++ [log]) trace
  | .packet rc :: trace =>
      let (later, pending') := receptionsFrom [] trace
      (⟨rc, pending⟩ :: later, pending')
  | .clock _ :: trace | .timerIsExpired _ :: trace | .write _ _ :: trace | .call _ _ :: trace =>
      receptionsFrom pending trace

/-- The calls of `readPacket` in a trace. -/
def receptions (trace : List (Event H)) : List Reception := (receptionsFrom [] trace).1

theorem receptionsFrom_append (first second : List (Event H)) :
    ∀ pending, receptionsFrom pending (first ++ second) =
      ((receptionsFrom pending first).1 ++
        (receptionsFrom (receptionsFrom pending first).2 second).1,
      (receptionsFrom (receptionsFrom pending first).2 second).2) := by
  induction first with
  | nil => intro pending; rfl
  | cons e trace ih =>
      intro pending
      cases e <;> simp only [List.cons_append, receptionsFrom, ih, List.cons_append]

theorem receptionsFrom_of_silent {trace : List (Event H)} (h : ∀ e ∈ trace, e.IsSilent) :
    ∀ pending, receptionsFrom pending trace = ([], pending) := by
  induction trace with
  | nil => intro pending; rfl
  | cons e trace ih =>
      intro pending
      have htail := ih (fun e he => h e (List.mem_cons_of_mem _ he)) pending
      have hhead := h e List.mem_cons_self
      cases e with
      | read log => exact hhead.elim
      | packet rc => exact hhead.elim
      | clock now => exact htail
      | timerIsExpired answer => exact htail
      | write offered rc => exact htail
      | call fp data => exact htail

/-- What the trace gained from `w` to `w'`. -/
def since (w w' : World σ H) : List (Event H) := w'.trace.drop w.trace.length

theorem since_of_append {w w' : World σ H} {new : List (Event H)}
    (h : w'.trace = w.trace ++ new) : since w w' = new := by
  rw [since, h, List.drop_left]

/-- From `w` to `w'` the trace grew by whole calls of `readPacket`, these ones. -/
structure Received (calls : List Reception) (w w' : World σ H) : Prop where
  trace_eq : ∃ new, w'.trace = w.trace ++ new ∧ receptionsFrom [] new = (calls, [])

namespace Received

variable {calls calls' : List Reception} {w w' w'' : World σ H}

theorem refl (w : World σ H) : Received [] w w := ⟨[], by simp, rfl⟩

theorem trans (h : Received calls w w') (h' : Received calls' w' w'') :
    Received (calls ++ calls') w w'' := by
  obtain ⟨new, htrace, hcalls⟩ := h
  obtain ⟨new', htrace', hcalls'⟩ := h'
  refine ⟨new ++ new', by rw [htrace', htrace, List.append_assoc], ?_⟩
  rw [receptionsFrom_append, hcalls, hcalls']

theorem of_emits {A : Event H → Prop} (h : Emits A w w') (hA : ∀ e, A e → e.IsSilent) :
    Received [] w w' := by
  obtain ⟨_, new, htrace, hnew⟩ := h
  exact ⟨new, htrace, receptionsFrom_of_silent (fun e he => hA e (hnew e he)) []⟩

theorem of_trace_eq (h : w'.trace = w.trace) : Received [] w w' := ⟨[], by simp [h], rfl⟩

/-- The calls are those found in the trace. -/
theorem receptions_since (h : Received calls w w') : receptions (since w w') = calls := by
  obtain ⟨new, htrace, hcalls⟩ := h
  rw [receptions, since_of_append htrace, hcalls]

end Received

/-! ## Reading from the network -/

/-- Clock readings and reads: what receiving a packet can cause. -/
def Event.IsReading : Event H → Prop
  | .clock _ | .read _ => True
  | .timerIsExpired _ | .packet _ | .write _ _ | .call _ _ => False

/-- From `w` to `w'` the network was read, with these records, and of the client
only the read buffer and the receiving timer may have changed. -/
structure Fetches (logs : List ReadLog) (w w' : World σ H) : Prop where
  client_eq : ∃ readbuf lastReceived, w'.client = { w.client with readbuf, lastReceived }
  trace_eq : ∃ new, w'.trace = w.trace ++ new ∧ (∀ e ∈ new, e.IsReading) ∧
    ∀ pending, receptionsFrom pending new = ([], pending ++ logs)

namespace Fetches

variable {logs logs' : List ReadLog} {w w' w'' : World σ H}

theorem refl (w : World σ H) : Fetches [] w w :=
  ⟨⟨w.client.readbuf, w.client.lastReceived, rfl⟩, [], by simp, by simp, by simp [receptionsFrom]⟩

theorem trans (h : Fetches logs w w') (h' : Fetches logs' w' w'') :
    Fetches (logs ++ logs') w w'' := by
  obtain ⟨⟨_, _, hclient⟩, new, htrace, hnew, hlogs⟩ := h
  obtain ⟨⟨readbuf, lastReceived, hclient'⟩, new', htrace', hnew', hlogs'⟩ := h'
  refine ⟨⟨readbuf, lastReceived, by rw [hclient', hclient]⟩, new ++ new', ?_, ?_, ?_⟩
  · rw [htrace', htrace, List.append_assoc]
  · intro e he
    exact (List.mem_append.mp he).elim (hnew e) (hnew' e)
  · intro pending
    rw [receptionsFrom_append, hlogs, hlogs', List.append_assoc]
    rfl

/-- Only the read buffer and the receiving timer were assigned. -/
theorem of_update {f : MQTTClient H → MQTTClient H}
    (hf : ∃ readbuf lastReceived, f w.client = { w.client with readbuf, lastReceived }) :
    Fetches [] w (w.update f) :=
  ⟨hf, [], by simp [World.update], by simp, by simp [receptionsFrom]⟩

theorem of_gettimeofday {now : Timeval} (h : (gettimeofday P).run w = some (now, w')) :
    Fetches [] w w' := by
  cases h
  exact ⟨⟨w.client.readbuf, w.client.lastReceived, rfl⟩, [.clock _], rfl,
    by simp [Event.IsReading], by simp [receptionsFrom]⟩

theorem of_timerLeftMS {timer : Timer} {left : Int}
    (h : (timerLeftMS P timer).run w = some (left, w')) :
    w'.client = w.client ∧ Fetches [] w w' := by
  obtain ⟨now, w₁, hclock, h⟩ := run_bind_eq_some.mp h
  obtain ⟨_, rfl⟩ := run_pure_eq_some.mp h
  exact ⟨by cases hclock; rfl, of_gettimeofday hclock⟩

theorem of_timerCountdown {timeout : Nat} {timer : Timer}
    (h : (timerCountdown P timeout).run w = some (timer, w')) :
    w'.client = w.client ∧ Fetches [] w w' := by
  obtain ⟨now, w₁, hclock, h⟩ := run_bind_eq_some.mp h
  obtain ⟨_, rfl⟩ := run_pure_eq_some.mp h
  exact ⟨by cases hclock; rfl, of_gettimeofday hclock⟩

theorem of_mqttread {len : Nat} {timeoutMs : Int} {r : ReadResult len}
    (h : (mqttread P len timeoutMs).run w = some (r, w')) :
    w'.client = w.client ∧ Fetches [⟨len, r.rc, r.stored⟩] w w' := by
  obtain ⟨env, _, rfl⟩ := run_mqttread_eq_some h
  exact ⟨rfl, ⟨w.client.readbuf, w.client.lastReceived, rfl⟩, [.read _], rfl,
    by simp [Event.IsReading], by simp [receptionsFrom]⟩

end Fetches

/-- A read of one byte that reports success stored that byte. -/
theorem ReadResult.exists_stored_eq {r : ReadResult 1} (h : r.rc = 1) :
    ∃ b, r.stored = [b] ∧ (⟨1, r.rc, r.stored⟩ : ReadLog) = byteLog b := by
  have hle := r.stored_le
  have hrc := r.rc_le
  obtain ⟨b, hb⟩ : ∃ b, r.stored = [b] := List.length_eq_one_iff.mp (by omega)
  exact ⟨b, hb, by rw [hb, h]; rfl⟩

/-- A read that reports all its bytes stored as many. -/
theorem ReadResult.length_eq {len : Nat} {r : ReadResult len} (h : r.rc = len) :
    r.stored.length = len := by
  have hle := r.stored_le
  have hrc := r.rc_le
  omega

/-- The length loop over the network: the bytes it got, how it ended, and the value
it accumulated. -/
theorem decodeLoop_networkChar_cases {timeoutMs : Int} :
    ∀ {left len value multiplier : Nat} {result : Nat × Nat} {w w' : World σ H},
      (decodeLoop (networkChar P timeoutMs) left len value multiplier).run w =
          some (result, w') →
      ∃ field cut, LengthRead left field cut ∧
        result.2 = value + lengthValue field * multiplier ∧ w'.client = w.client ∧
        Fetches (field.map byteLog ++ cut) w w' := by
  intro left
  induction left with
  | zero =>
      intro len value multiplier result w w' h
      obtain ⟨rfl, rfl⟩ := run_pure_eq_some.mp h
      exact ⟨[], [], .bad, by simp [lengthValue], rfl, .refl w⟩
  | succ left ih =>
      intro len value multiplier result w w' h
      obtain ⟨⟨rc, c⟩, w₁, hchar, h⟩ := run_bind_eq_some.mp h
      obtain ⟨r, _, hread, hchar⟩ := run_bind_eq_some.mp hchar
      obtain ⟨heq, rfl⟩ := run_pure_eq_some.mp hchar
      obtain ⟨hclient, hfetch⟩ := Fetches.of_mqttread hread
      cases heq
      dsimp only at h
      split at h
      · -- the read failed, and its record is where the field is cut off
        rename_i hrc
        obtain ⟨rfl, rfl⟩ := run_pure_eq_some.mp h
        exact ⟨[], [_], .failed hrc, by simp [lengthValue], hclient, hfetch⟩
      · rename_i hrc
        obtain ⟨b, hb, hlog⟩ := r.exists_stored_eq (not_not.mp hrc)
        rw [hlog] at hfetch
        have hcont := and_128_ne_zero_iff b
        rw [hb, List.headD_cons, toNat_and_127] at h
        split at h
        · rename_i hmore
          obtain ⟨field, cut, hfield, hvalue, hclient', hfetch'⟩ := ih h
          refine ⟨b :: field, cut, .more (hcont.mp hmore) hfield, ?_,
            hclient'.trans hclient, hfetch.trans hfetch'⟩
          rw [hvalue, lengthValue]
          ring
        · rename_i hlast
          obtain ⟨rfl, rfl⟩ := run_pure_eq_some.mp h
          refine ⟨[b], [], .last ?_, by simp [lengthValue], hclient, hfetch⟩
          exact Nat.lt_of_not_le fun hge => hlast (hcont.mpr hge)

theorem decodePacket_cases {timeoutMs : Int} {result : Nat × Nat} {w w' : World σ H}
    (h : (decodePacket P timeoutMs).run w = some (result, w')) :
    ∃ field cut, LengthRead 4 field cut ∧ result.2 = lengthValue field ∧
      w'.client = w.client ∧ Fetches (field.map byteLog ++ cut) w w' := by
  obtain ⟨field, cut, hfield, hvalue, hrest⟩ := decodeLoop_networkChar_cases h
  exact ⟨field, cut, hfield, by simpa using hvalue, hrest⟩

theorem readInto_cases {start len : Nat} {timeoutMs rc : Int} {w w' : World σ H}
    (h : (readInto P start len timeoutMs).run w = some (rc, w')) :
    ∃ r : ReadResult len, r.rc = rc ∧
      w'.client = { w.client with readbuf := w.client.readbuf.store start r.stored } ∧
      Fetches [⟨len, r.rc, r.stored⟩] w w' := by
  obtain ⟨r, w₁, hread, h⟩ := run_bind_eq_some.mp h
  obtain ⟨_, w₂, hstore, h⟩ := run_bind_eq_some.mp h
  cases hstore
  obtain ⟨rfl, rfl⟩ := run_pure_eq_some.mp h
  obtain ⟨hclient, hfetch⟩ := Fetches.of_mqttread hread
  refine ⟨r, rfl, by rw [← hclient]; rfl, hfetch.trans (.of_update ?_)⟩
  exact ⟨_, w₁.client.lastReceived, rfl⟩

theorem finishPacket_cases {rc : Int} {w w' : World σ H}
    (h : (finishPacket P).run w = some (rc, w')) :
    rc = (MQTTHeader.ofByte (w.client.readbuf 0)).type ∧
      (∃ lastReceived, w'.client = { w.client with lastReceived }) ∧ Fetches [] w w' := by
  obtain ⟨c, w₁, hclient, h⟩ := run_bind_eq_some.mp h
  cases hclient
  split at h
  · obtain ⟨lastReceived, w₂, hcount, h⟩ := run_bind_eq_some.mp h
    obtain ⟨_, w₃, hset, h⟩ := run_bind_eq_some.mp h
    cases hset
    obtain ⟨rfl, rfl⟩ := run_pure_eq_some.mp h
    obtain ⟨hsame, hfetch⟩ := Fetches.of_timerCountdown hcount
    refine ⟨rfl, ⟨lastReceived, by rw [← hsame]; rfl⟩, hfetch.trans (.of_update ?_)⟩
    exact ⟨w₂.client.readbuf, lastReceived, rfl⟩
  · obtain ⟨rfl, rfl⟩ := run_pure_eq_some.mp h
    exact ⟨rfl, ⟨w.client.lastReceived, rfl⟩, .refl w⟩

/-! ## `readPacket` -/

/-- The reads of a call of `readPacket` that got to its end: a header, the bytes of
the length field, which may have been cut off, and a body of the length decoded. -/
structure ReadsPacket (reads : List ReadLog) (header : UInt8) (field : List UInt8)
    (cut : List ReadLog) (body : List UInt8) : Prop where
  reads_eq : reads = byteLog header :: (field.map byteLog ++ cut ++ bodyLog body)
  lengthRead : LengthRead 4 field cut
  value_eq : lengthValue field = body.length

namespace ReadsPacket

variable {reads : List ReadLog} {header header' : UInt8} {field field' : List UInt8}
  {cut cut' : List ReadLog} {body body' : List UInt8}

/-- The reads determine the packet. -/
theorem unique (h : ReadsPacket reads header field cut body)
    (h' : ReadsPacket reads header' field' cut' body') :
    header = header' ∧ field = field' ∧ cut = cut' ∧ body = body' := by
  obtain ⟨hheader, hrest⟩ := List.cons.inj (h.reads_eq.symm.trans h'.reads_eq)
  exact ⟨byteLog_injective hheader, h.lengthRead.eq_of_append_eq h'.lengthRead hrest⟩

theorem of_readLogs {F : Frame} (hreads : reads = F.readLogs) :
    ReadsPacket reads F.header F.field [] F.body :=
  ⟨by rw [hreads, List.append_nil]; rfl, .of_terminates F.terminates F.field_le, F.value_eq⟩

/-- A finished length field makes the packet complete. -/
theorem exists_frame (h : ReadsPacket reads header field cut body) (hterm : Terminates field) :
    ∃ F : Frame, reads = F.readLogs ∧ F.header = header ∧ F.body = body := by
  obtain rfl := h.lengthRead.cut_eq_nil_of_terminates hterm
  obtain ⟨rfl, hlength, hvalue⟩ := h
  refine ⟨⟨header, field, body, hterm, hlength.length_le, hvalue⟩, ?_, rfl, rfl⟩
  rw [List.append_nil]
  rfl

/-- The packet is complete exactly if its length field was finished. -/
theorem exists_frame_iff (h : ReadsPacket reads header field cut body)
    (Q : UInt8 → List UInt8 → Prop) :
    (∃ F : Frame, reads = F.readLogs ∧ Q F.header F.body) ↔ Terminates field ∧ Q header body := by
  constructor
  · rintro ⟨F, hF, hQ⟩
    obtain ⟨rfl, rfl, _, rfl⟩ := (of_readLogs hF).unique h
    exact ⟨F.terminates, hQ⟩
  · rintro ⟨hterm, hQ⟩
    obtain ⟨F, hF, rfl, rfl⟩ := h.exists_frame hterm
    exact ⟨F, hF, hQ⟩

end ReadsPacket

/-- What `readPacket` leaves in the client when it gets to its end. -/
structure FrameRead (c : MQTTClient H) (call : Reception) (header : UInt8) (field : List UInt8)
    (cut : List ReadLog) (body : List UInt8) : Prop
    extends ReadsPacket call.reads header field cut body where
  rc_eq : call.rc = (MQTTHeader.ofByte header).type
  fits : body.length ≤ toSizeT (c.readbufSize - HoldsFrame.bodyStart body)
  holds : HoldsFrame c.readbuf header body

/-- Step 3 of `readPacket`, when the first two have left header and field behind. -/
theorem readBody_cases {timer : Timer} {n : Nat} {rc : Int} {w w' : World σ H} {m : Memory}
    {header : UInt8} (hn : n < 268435456)
    (hbuf : w.client.readbuf = (m.store 0 [header]).store 1 (mqttPacketEncode n))
    (h : (readBody P timer (1 + (mqttPacketEncode n).length) n).run w = some (rc, w')) :
    ∃ logs, Fetches logs w w' ∧
      (rc ≤ 0 ∨ ∃ body, logs = bodyLog body ∧ rc = (MQTTHeader.ofByte header).type ∧
        n = body.length ∧
        body.length ≤ toSizeT (w.client.readbufSize - HoldsFrame.bodyStart body) ∧
        HoldsFrame w'.client.readbuf header body) := by
  obtain ⟨c, w₁, hclient, h⟩ := run_bind_eq_some.mp h
  cases hclient
  split at h
  · obtain ⟨rfl, rfl⟩ := run_pure_eq_some.mp h
    exact ⟨[], .refl w, .inl (by decide)⟩
  · rename_i hfits
    split at h
    · rename_i hpos
      obtain ⟨left, w₁, hleft, h⟩ := run_bind_eq_some.mp h
      obtain ⟨got, w₂, hread, h⟩ := run_bind_eq_some.mp h
      obtain ⟨hsame, hfetch⟩ := Fetches.of_timerLeftMS hleft
      obtain ⟨r, hrc, hclient, hfetch'⟩ := readInto_cases hread
      have hstart := hfetch.trans hfetch'
      split at h
      · obtain ⟨rfl, rfl⟩ := run_pure_eq_some.mp h
        exact ⟨_, hstart, .inl (by decide)⟩
      · rename_i hall
        obtain ⟨htype, ⟨lastReceived, hclient'⟩, hfetch''⟩ := finishPacket_cases h
        have hgot := hrc.trans (not_not.mp hall)
        have hlen := r.length_eq hgot
        rw [hgot] at hstart
        generalize r.stored = stored at hclient hstart hlen
        subst hlen
        have hholds : HoldsFrame w₂.client.readbuf header stored := by
          rw [hclient, hsame, hbuf]
          exact .of_stores m header _ hn
        refine ⟨_, hstart.trans hfetch'', .inr ⟨stored, ?_, ?_, rfl, ?_, ?_⟩⟩
        · rw [bodyLog, if_neg (List.length_pos_iff.mp hpos)]
          rfl
        · rw [htype, hholds.header_eq]
        · exact Nat.le_of_not_lt hfits
        · rw [hclient']
          exact hholds
    · rename_i hpos
      obtain rfl : n = 0 := by omega
      obtain ⟨htype, ⟨lastReceived, hclient'⟩, hfetch⟩ := finishPacket_cases h
      have hholds : HoldsFrame w.client.readbuf header [] := by
        have hstores := HoldsFrame.of_stores m header [] (by decide)
        rw [Memory.store_nil] at hstores
        rw [hbuf]
        exact hstores
      refine ⟨[], hfetch, .inr ⟨[], rfl, ?_, rfl, Nat.zero_le _, ?_⟩⟩
      · rw [htype, hholds.header_eq]
      · rw [hclient']
        exact hholds

/-- Everything `readPacket` can do: read from the network, log its result, and
return something that is not positive, or leave a frame in the read buffer. -/
theorem readPacket_cases {timer : Timer} {rc : Int} {w w' : World σ H}
    (h : (readPacket P timer).run w = some (rc, w')) :
    ∃ reads w₀, Fetches reads w w₀ ∧ w' = w₀.log (.packet rc) ∧
      (rc ≤ 0 ∨ ∃ header field cut body,
        FrameRead w'.client ⟨rc, reads⟩ header field cut body) := by
  obtain ⟨rc', w₀, hbody, h⟩ := run_bind_eq_some.mp h
  obtain ⟨_, _, hlog, h⟩ := run_bind_eq_some.mp h
  cases hlog
  obtain ⟨rfl, rfl⟩ := run_pure_eq_some.mp h
  obtain ⟨left, w₁, hleft, hbody⟩ := run_bind_eq_some.mp hbody
  obtain ⟨got, w₂, hread, hbody⟩ := run_bind_eq_some.mp hbody
  obtain ⟨hsame, hfetch⟩ := Fetches.of_timerLeftMS hleft
  obtain ⟨r, rfl, hclient, hfetch'⟩ := readInto_cases hread
  have hheader := hfetch.trans hfetch'
  split at hbody
  · rename_i hrc
    obtain ⟨rfl, rfl⟩ := run_pure_eq_some.mp hbody
    have hle := r.stored_le
    have hrc' := r.rc_le
    exact ⟨_, w₂, hheader, rfl, .inl (by omega)⟩
  · rename_i hrc
    obtain ⟨b, hb, hlog⟩ := r.exists_stored_eq (not_not.mp hrc)
    rw [hlog] at hheader
    rw [hb] at hclient
    obtain ⟨left', w₃, hleft', hbody⟩ := run_bind_eq_some.mp hbody
    obtain ⟨⟨len, n⟩, w₄, hdecode, hbody⟩ := run_bind_eq_some.mp hbody
    obtain ⟨_, w₅, hfield, hbody⟩ := run_bind_eq_some.mp hbody
    cases hfield
    obtain ⟨hsame', hfetch₁⟩ := Fetches.of_timerLeftMS hleft'
    obtain ⟨field, cut, hlength, hvalue, hsame'', hfetch₂⟩ := decodePacket_cases hdecode
    obtain rfl : n = lengthValue field := hvalue
    have hn := lengthValue_lt_of_length_le hlength.length_le
    have hbuf : (w₄.client.readbuf.store 1 (mqttPacketEncode (lengthValue field))) =
        (w.client.readbuf.store 0 [b]).store 1 (mqttPacketEncode (lengthValue field)) := by
      rw [hsame'', hsame', hclient, hsame]
    obtain ⟨logs, hfetch₃, hend⟩ := readBody_cases hn hbuf hbody
    have hstored : Fetches [] w₄ (w₄.update fun c =>
        { c with readbuf := c.readbuf.store 1 (mqttPacketEncode (lengthValue field)) }) :=
      .of_update ⟨_, w₄.client.lastReceived, rfl⟩
    have hall := ((hheader.trans (hfetch₁.trans hfetch₂)).trans hstored).trans hfetch₃
    refine ⟨_, w₀, hall, rfl, hend.imp_right ?_⟩
    rintro ⟨body, rfl, hrc, hval, hfits, hholds⟩
    refine ⟨b, field, cut, body, ⟨?_, hlength, hval⟩, hrc, ?_, hholds⟩
    · simp
    · obtain ⟨⟨_, _, hc⟩, _⟩ := hfetch₃
      show body.length ≤ toSizeT (w₀.client.readbufSize - _)
      rw [hc]
      exact hfits

end MqttClient
