/-
# What `write_fd_linux` hands to the connection

`write_fd_linux` repeats `select` and `write` until `count` bytes are written.  As in
`sendPacket`, a second `write` starts behind what the first one took but is passed the
whole `count` again, so it reaches behind the buffer, and with `total` beyond `count` the
loop runs past its end.

Nothing else is wrong with it.  Unless a first `write` takes a part and the next `select`
finds the connection ready, there is at most one `write` of the buffer, and `count` is
returned only if it took everything.
-/

import MqttClient.Semantics.Transfer
import MqttClient.Platform.ModbusTcp

namespace MqttClient

open Semantics Program

variable {τ ν : Type}

/-! ## The loop as attempts -/

section Turns

variable (T : TcpHost τ) (fd : Int) (buf : Memory) (count : Nat) (timeoutMs : Int)

/-- One turn of the loop with `total` bytes behind it. -/
def writeTurn (total : Nat) (s : τ) : Turn τ Int :=
  if total = count then .done total s
  else
    let ready := T.select s fd timeoutMs
    if ready.1 = 0 then .done 0 ready.2
    else if ready.1 = 1 then
      let w := T.write ready.2 fd (buf.load total count)
      if w.1 = 0 then .refused count (-1) (T.close w.2 fd)
      else if w.1 ≤ 0 then .refused count (-1) w.2
      else .took count w.1.toNat ((total + w.1.toNat) % 65536) w.2
    else .done (-1) ready.2

/-- The attempts of `write_fd_linux` within `fuel` turns. -/
def writeAttempts (fuel : Nat) (s : τ) : List Attempt :=
  (transfer (writeTurn T fd buf count timeoutMs) fuel 0 s).1

/-- The ways a turn can go. -/
theorem writeTurn_cases (total : Nat) (s : τ) :
    (total = count ∧ writeTurn T fd buf count timeoutMs total s = .done total s) ∨
    (total ≠ count ∧
      (((T.select s fd timeoutMs).1 = 0 ∧
          writeTurn T fd buf count timeoutMs total s = .done 0 (T.select s fd timeoutMs).2) ∨
        ((T.select s fd timeoutMs).1 ≠ 0 ∧ (T.select s fd timeoutMs).1 ≠ 1 ∧
          writeTurn T fd buf count timeoutMs total s = .done (-1) (T.select s fd timeoutMs).2) ∨
        ((T.select s fd timeoutMs).1 = 1 ∧ ∃ w s',
          T.write (T.select s fd timeoutMs).2 fd (buf.load total count) = (w, s') ∧
          ((w = 0 ∧ writeTurn T fd buf count timeoutMs total s =
              .refused count (-1) (T.close s' fd)) ∨
            (w < 0 ∧ writeTurn T fd buf count timeoutMs total s = .refused count (-1) s') ∨
            (0 < w ∧ writeTurn T fd buf count timeoutMs total s =
              .took count w.toNat ((total + w.toNat) % 65536) s'))))) := by
  unfold writeTurn
  by_cases htotal : total = count
  · exact .inl ⟨htotal, if_pos htotal⟩
  · rw [if_neg htotal]
    refine .inr ⟨htotal, ?_⟩
    dsimp only
    by_cases hzero : (T.select s fd timeoutMs).1 = 0
    · exact .inl ⟨hzero, if_pos hzero⟩
    · rw [if_neg hzero]
      by_cases hone : (T.select s fd timeoutMs).1 = 1
      · rw [if_pos hone]
        refine .inr (.inr ⟨hone, _, _, rfl, ?_⟩)
        rcases Int.lt_trichotomy
            (T.write (T.select s fd timeoutMs).2 fd (buf.load total count)).1 0
          with hneg | hnone | hpos
        · exact .inr (.inl ⟨hneg, by rw [if_neg (by omega), if_pos (by omega)]⟩)
        · exact .inl ⟨hnone, if_pos hnone⟩
        · exact .inr (.inr ⟨hpos, by rw [if_neg (by omega), if_neg (by omega)]⟩)
      · exact .inr (.inl ⟨hzero, hone, if_neg hone⟩)

/-- The loop ends with the same value, in the same state of the system, as its turns. -/
theorem run_writeFdLoop (fuel : Nat) :
    ∀ (total : Nat) (w : TcpWorld τ ν),
      ((writeFdLoop T fd buf count timeoutMs fuel total).run w).map (fun r => (r.1, r.2.host)) =
        (transfer (writeTurn T fd buf count timeoutMs) fuel total w.host).2 := by
  induction fuel with
  | zero => intro total w; rfl
  | succ fuel ih =>
      intro total w
      rw [writeFdLoop]
      obtain ⟨htotal, hturn⟩ | ⟨htotal, ⟨hzero, hturn⟩ | ⟨hzero, hone, hturn⟩ |
          ⟨hone, written, s', hwrite, hanswer⟩⟩ :=
        writeTurn_cases T fd buf count timeoutMs total w.host
      · rw [if_pos htotal, transfer_of_done hturn]
        rfl
      · rw [if_neg htotal, run_bind_of_eq_some (run_syscall _ w), if_pos hzero,
          transfer_of_done hturn]
        rfl
      · rw [if_neg htotal, run_bind_of_eq_some (run_syscall _ w), if_neg hzero, if_neg hone,
          transfer_of_done hturn]
        rfl
      · have hrun : (syscall (T.write · fd (buf.load total count)) : TcpAction τ ν Int).run
            { w with host := (T.select w.host fd timeoutMs).2 } =
              some (written, { w with host := s' }) := by
          rw [run_syscall]
          dsimp only
          rw [hwrite]
        rw [if_neg htotal, run_bind_of_eq_some (run_syscall _ w), if_neg (by omega), if_pos hone,
          run_bind_of_eq_some hrun]
        obtain ⟨hnone, hturn⟩ | ⟨hneg, hturn⟩ | ⟨hpos, hturn⟩ := hanswer
        · rw [if_pos hnone, transfer_of_refused hturn]
          rfl
        · rw [if_neg (by omega), if_pos (by omega), transfer_of_refused hturn]
          rfl
        · rw [if_neg (by omega), if_neg (by omega), transfer_of_took hturn, ih]

end Turns

variable {T : TcpHost τ} {fd : Int} {buf : Memory} {timeoutMs : Int}

/-! ## When the loop goes wrong -/

/-- `write` reports at most the number of bytes it was passed. -/
def TcpHost.CountsWrites (T : TcpHost τ) : Prop :=
  ∀ s fd bytes, (T.write s fd bytes).1 ≤ bytes.length

/-- A call of `write_fd_linux` passes only bytes of the buffer to `write`, returns `count`
only after exactly these were written, once and in order, and ends after at most `count`
successful writes. -/
structure WritesBufferOnce (T : TcpHost τ) (fd : Int) (buf : Memory) (count : UInt16)
    (timeoutMs : Int) (w : TcpWorld τ ν) : Prop where
  within : ∀ fuel, ∀ attempt ∈ writeAttempts T fd buf count.toNat timeoutMs fuel w.host,
    ∀ i ∈ attempt.offered, i < count.toNat
  whole : ∀ {fuel : Nat} {rc : Int} {w' : TcpWorld τ ν},
    (writeFdLinux T fuel fd buf count timeoutMs).run w = some (rc, w') → rc = count.toNat →
    Attempt.transferredIn (writeAttempts T fd buf count.toNat timeoutMs fuel w.host) =
      List.range count.toNat
  ends : ∃ fuel, (writeFdLinux T fuel fd buf count timeoutMs).Returns w fun _ _ => True
  few : ∀ fuel,
    (Attempt.successful (writeAttempts T fd buf count.toNat timeoutMs fuel w.host)).length ≤
      count.toNat

/-- The first `write` takes a part of the buffer, and the `select` after it finds the
connection ready again. -/
def WriteTakesPart (T : TcpHost τ) (fd : Int) (buf : Memory) (count : Nat) (timeoutMs : Int)
    (s : τ) : Prop :=
  (T.select s fd timeoutMs).1 = 1 ∧
    ∃ w s', T.write (T.select s fd timeoutMs).2 fd (buf.load 0 count) = (w, s') ∧
      0 < w ∧ w < count ∧ (T.select s' fd timeoutMs).1 = 1

/-- With bytes to write and the connection ready, a turn offers the whole count. -/
theorem writeTurn_offers (T : TcpHost τ) (fd : Int) (buf : Memory) (timeoutMs : Int)
    {count total : Nat} (htotal : total ≠ count) {s : τ}
    (hready : (T.select s fd timeoutMs).1 = 1) :
    (writeTurn T fd buf count timeoutMs total s).offers = some count := by
  obtain ⟨heq, _⟩ | ⟨_, ⟨hzero, _⟩ | ⟨_, hne, _⟩ |
      ⟨_, w, s', _, ⟨_, hturn⟩ | ⟨_, hturn⟩ | ⟨_, hturn⟩⟩⟩ :=
    writeTurn_cases T fd buf count timeoutMs total s
  · exact absurd heq htotal
  · omega
  · exact absurd hready hne
  all_goals
    rw [hturn]
    rfl

theorem writeTurn_of_took {count total : Nat} (htotal : total ≠ count) {s s' : τ} {w : Int}
    (hready : (T.select s fd timeoutMs).1 = 1)
    (hwrite : T.write (T.select s fd timeoutMs).2 fd (buf.load total count) = (w, s'))
    (hpos : 0 < w) :
    writeTurn T fd buf count timeoutMs total s =
      .took count w.toNat ((total + w.toNat) % 65536) s' := by
  unfold writeTurn
  dsimp only
  rw [if_neg htotal, if_neg (by omega), if_pos hready, hwrite]
  dsimp only
  rw [if_neg (by omega), if_neg (by omega)]

/-- A `write` that takes nothing ends the loop. -/
theorem writeTurn_of_refused {count total : Nat} (htotal : total ≠ count) {s s' : τ} {w : Int}
    (hready : (T.select s fd timeoutMs).1 = 1)
    (hwrite : T.write (T.select s fd timeoutMs).2 fd (buf.load total count) = (w, s'))
    (hw : w ≤ 0) :
    ∃ s₁, writeTurn T fd buf count timeoutMs total s = .refused count (-1) s₁ := by
  obtain ⟨heq, _⟩ | ⟨_, ⟨hzero, _⟩ | ⟨_, hne, _⟩ | ⟨_, w', s₁, hwrite', hanswer⟩⟩ :=
    writeTurn_cases T fd buf count timeoutMs total s
  · exact absurd heq htotal
  · omega
  · exact absurd hready hne
  · cases hwrite.symm.trans hwrite'
    obtain ⟨_, hturn⟩ | ⟨_, hturn⟩ | ⟨hpos, _⟩ := hanswer
    · exact ⟨_, hturn⟩
    · exact ⟨_, hturn⟩
    · omega

/-- A turn with nothing to write, or whose `select` does not answer 1, ends the loop, and
not with `count` unless there was nothing to write. -/
theorem writeTurn_done (T : TcpHost τ) (fd : Int) (buf : Memory) (timeoutMs : Int)
    {count total : Nat} {s : τ} (h : total = count ∨ (T.select s fd timeoutMs).1 ≠ 1) :
    ∃ rc s', writeTurn T fd buf count timeoutMs total s = .done rc s' ∧
      (rc = count → total = count ∨ count = 0) := by
  obtain ⟨heq, hturn⟩ | ⟨hne, ⟨_, hturn⟩ | ⟨_, _, hturn⟩ | ⟨hone, _⟩⟩ :=
    writeTurn_cases T fd buf count timeoutMs total s
  · exact ⟨_, _, hturn, fun _ => .inl heq⟩
  · exact ⟨_, _, hturn, fun hrc => .inr (by omega)⟩
  · exact ⟨_, _, hturn, fun hrc => by omega⟩
  · exact absurd hone (h.resolve_left hne)

/-- A loop that goes on after a part reaches behind the buffer. -/
theorem WriteTakesPart.exists_outside {count : UInt16} {s : τ}
    (h : WriteTakesPart T fd buf count.toNat timeoutMs s) :
    ∃ fuel, ∃ attempt ∈ writeAttempts T fd buf count.toNat timeoutMs fuel s,
      ∃ i ∈ attempt.offered, ¬ i < count.toNat := by
  obtain ⟨hready, w, s', hwrite, hpos, hlt, hagain⟩ := h
  have hcount := count.toNat_lt
  have hturn := writeTurn_of_took (show 0 ≠ count.toNat by omega) hready hwrite hpos
  obtain ⟨attempt, hmem, hstart, hsize⟩ := exists_attempt_of_offers
    (writeTurn_offers T fd buf timeoutMs
      (show (0 + w.toNat) % 65536 ≠ count.toNat by omega) hagain) 0
  refine ⟨2, attempt, ?_, Attempt.exists_offered_outside (by omega) (by omega)⟩
  rw [writeAttempts, transfer_of_took hturn]
  exact List.mem_cons_of_mem _ hmem

/-- Otherwise there is at most one attempt, it is offered the buffer, and the loop ends
behind it. -/
theorem writeTurns_of_not_takesPart (hcounts : T.CountsWrites) {count : UInt16} {s : τ}
    (hnone : ¬ WriteTakesPart T fd buf count.toNat timeoutMs s) (fuel : Nat) :
    ∃ attempts outcome,
      transfer (writeTurn T fd buf count.toNat timeoutMs) fuel 0 s = (attempts, outcome) ∧
      (2 ≤ fuel → outcome.isSome = true) ∧
      (attempts = [] ∨ 0 < count.toNat ∧ ∃ taken, attempts = [⟨0, count.toNat, taken⟩]) ∧
      ∀ rc s', outcome = some (rc, s') → rc = count.toNat →
        Attempt.transferredIn attempts = List.range count.toNat := by
  have hlt := count.toNat_lt
  cases fuel with
  | zero => exact ⟨[], none, rfl, fun h => by omega, .inl rfl, fun _ _ h => by cases h⟩
  | succ fuel =>
      by_cases hstop : 0 = count.toNat ∨ (T.select s fd timeoutMs).1 ≠ 1
      · obtain ⟨rc, s₁, hturn, hrc⟩ := writeTurn_done T fd buf timeoutMs hstop
        refine ⟨_, _, transfer_of_done hturn fuel, fun _ => rfl, .inl rfl, fun rc' s' h hrc' => ?_⟩
        cases h
        have hzero : count.toNat = 0 := by
          have := hrc hrc'
          omega
        rw [hzero]
        rfl
      obtain ⟨hcount, hready⟩ := not_or.mp hstop
      have hready := not_not.mp hready
      rcases hwrite : T.write (T.select s fd timeoutMs).2 fd (buf.load 0 count.toNat) with ⟨w, s₁⟩
      rcases Int.lt_or_le 0 w with hw | hw
      swap
      · obtain ⟨s₂, hturn⟩ := writeTurn_of_refused hcount hready hwrite hw
        refine ⟨_, _, transfer_of_refused hturn fuel, fun _ => rfl, .inr ⟨by omega, _, rfl⟩,
          fun rc s' h hrc => ?_⟩
        cases h
        omega
      have hle := hcounts (T.select s fd timeoutMs).2 fd (buf.load 0 count.toNat)
      rw [hwrite, Memory.load_length] at hle
      have hstop' : (0 + w.toNat) % 65536 = count.toNat ∨ (T.select s₁ fd timeoutMs).1 ≠ 1 := by
        by_cases hwhole : w = count.toNat
        · exact .inl (by omega)
        · refine .inr fun hagain => hnone ⟨hready, w, s₁, hwrite, hw, ?_, hagain⟩
          omega
      obtain ⟨rc, s₂, hdone, hrc⟩ := writeTurn_done T fd buf timeoutMs hstop'
      rw [transfer_of_took (writeTurn_of_took hcount hready hwrite hw)]
      cases fuel with
      | zero =>
          exact ⟨_, _, rfl, fun h => by omega, .inr ⟨by omega, _, rfl⟩, fun _ _ h => by cases h⟩
      | succ fuel =>
          rw [transfer_of_done hdone]
          refine ⟨_, _, rfl, fun _ => rfl, .inr ⟨by omega, _, rfl⟩, fun rc' s' h hrc' => ?_⟩
          cases h
          have hwhole : w.toNat = count.toNat := by
            have := hrc hrc'
            omega
          rw [hwhole, List.range_eq_range']
          exact List.append_nil _

/-- `write_fd_linux` is right exactly if its first `write` does not take a part with the
connection ready again. -/
theorem writesBufferOnce_iff (hcounts : T.CountsWrites) (fd : Int) (buf : Memory) (count : UInt16)
    (timeoutMs : Int) (w : TcpWorld τ ν) :
    WritesBufferOnce T fd buf count timeoutMs w ↔
      ¬ WriteTakesPart T fd buf count.toNat timeoutMs w.host := by
  constructor
  · intro honce hpart
    obtain ⟨fuel, attempt, hmem, i, hi, houtside⟩ := hpart.exists_outside
    exact houtside (honce.within fuel attempt hmem i hi)
  · intro hnone
    have hturns := writeTurns_of_not_takesPart hcounts hnone
    refine ⟨fun fuel attempt hmem i hi => ?_, fun {fuel rc w'} hrun hrc => ?_, ⟨2, ?_⟩,
      fun fuel => ?_⟩
    · obtain ⟨attempts, outcome, htransfer, _, hshape, _⟩ := hturns fuel
      rw [writeAttempts, htransfer] at hmem
      obtain rfl | ⟨_, taken, rfl⟩ := hshape
      · exact absurd hmem List.not_mem_nil
      · rw [List.mem_singleton.mp hmem] at hi
        have hbounds : 0 ≤ i ∧ i < 0 + count.toNat := Attempt.mem_offered.mp hi
        omega
    · obtain ⟨attempts, outcome, htransfer, _, _, hwhole⟩ := hturns fuel
      have herased := (run_writeFdLoop T fd buf count.toNat timeoutMs fuel 0 w).symm.trans
        (congrArg (Option.map _) hrun)
      rw [htransfer] at herased
      rw [writeAttempts, htransfer]
      exact hwhole rc w'.host herased hrc
    · obtain ⟨attempts, outcome, htransfer, hsome, _, _⟩ := hturns 2
      obtain ⟨r, hr⟩ := Option.isSome_iff_exists.mp (hsome (Nat.le_refl 2))
      have herased := run_writeFdLoop T fd buf count.toNat timeoutMs 2 0 w
      rw [htransfer, hr] at herased
      obtain ⟨⟨rc, w'⟩, hrun, _⟩ := Option.map_eq_some_iff.mp herased
      exact ⟨rc, w', hrun, trivial⟩
    · obtain ⟨attempts, outcome, htransfer, _, hshape, _⟩ := hturns fuel
      rw [writeAttempts, htransfer]
      obtain rfl | ⟨hpos, taken, rfl⟩ := hshape
      · exact Nat.zero_le _
      · exact (List.length_filter_le _ _).trans hpos

/-- A system whose connection is always ready and takes at most `most` bytes of a `write`. -/
def takingHost (most : Nat) : TcpHost Unit where
  getaddrinfo s _ _ := (none, s)
  socket s := (-1, s)
  connect s _ := (-1, s)
  select s _ _ := (1, s)
  read s _ := (.error, s)
  write s _ bytes := ((min most bytes.length : Nat), s)
  close s _ := s
  uninitialised s := (0, s)

theorem takingHost_countsWrites (most : Nat) : (takingHost most).CountsWrites :=
  fun _ _ bytes => Int.ofNat_le.mpr (Nat.min_le_right most bytes.length)

/-- A request of twelve bytes that is taken in one piece. -/
theorem writesBufferOnce_request :
    (takingHost 12).CountsWrites ∧
      WritesBufferOnce (takingHost 12) 3 (fun i => UInt8.ofNat i) 12 1000
        (⟨(), (), []⟩ : TcpWorld Unit Unit) := by
  have hcounts := takingHost_countsWrites 12
  refine ⟨hcounts, (writesBufferOnce_iff hcounts 3 _ 12 1000 _).mpr ?_⟩
  rintro ⟨_, w, s', hwrite, _, hlt, _⟩
  obtain ⟨rfl, _⟩ := Prod.mk.inj hwrite
  exact absurd hlt (by decide)

/-- With eight bytes taken at a time, `total` is never twelve. -/
theorem writeFdLinux_endless (fuel : Nat) (buf : Memory) (w : TcpWorld Unit ν) :
    (writeFdLinux (takingHost 8) fuel 3 buf 12 1000).run w = none := by
  have hturn : ∀ total s, total % 8 = 0 →
      writeTurn (takingHost 8) 3 buf 12 1000 total s = .took 12 8 ((total + 8) % 65536) s := by
    intro total s htotal
    have hwrite : (takingHost 8).write s 3 (buf.load total 12) = (8, s) := by
      simp [takingHost, Memory.load_length]
    exact writeTurn_of_took (show total ≠ 12 by omega) rfl hwrite (by decide)
  have hnever : ∀ rc s',
      (transfer (writeTurn (takingHost 8) 3 buf 12 1000) fuel 0 w.host).2 = some (rc, s') → False :=
    (transfer_invariant (I := fun total _ => total % 8 = 0) (A := fun _ => True)
      (fun total s htotal => by
        rw [hturn total s htotal]
        exact ⟨trivial, by omega⟩) fuel rfl).2
  have herased := run_writeFdLoop (takingHost 8) 3 buf 12 1000 fuel 0 w
  rcases hrun : (writeFdLinux (takingHost 8) fuel 3 buf 12 1000).run w with _ | ⟨rc, w'⟩
  · rfl
  · exact (hnever rc w'.host (herased.symm.trans (congrArg (Option.map _) hrun))).elim

/-- A request of twelve bytes of which at most eight are taken at once.  The second `write`
is passed twelve bytes from the ninth on, so eight that do not belong to the request, and
the loop never comes back. -/
theorem writeFdLinux_overruns_eight :
    (takingHost 8).CountsWrites ∧
      writeAttempts (takingHost 8) 3 (fun i => UInt8.ofNat i) 12 1000 3 () =
        [⟨0, 12, 8⟩, ⟨8, 12, 8⟩, ⟨16, 12, 8⟩] ∧
      (∀ fuel, (writeFdLinux (takingHost 8) fuel 3 (fun i => UInt8.ofNat i) 12 1000).run
        (⟨(), (), []⟩ : TcpWorld Unit Unit) = none) ∧
      ¬ WritesBufferOnce (takingHost 8) 3 (fun i => UInt8.ofNat i) 12 1000
        (⟨(), (), []⟩ : TcpWorld Unit Unit) := by
  refine ⟨takingHost_countsWrites 8, by decide, fun fuel => writeFdLinux_endless fuel _ _,
    fun honce => ?_⟩
  have hinside := honce.within 2 ⟨8, 12, 8⟩ (by decide) 12 (by decide)
  exact absurd hinside (by decide)

end MqttClient
