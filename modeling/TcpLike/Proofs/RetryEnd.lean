import TcpLike.Proofs.Wire

/-!
# How the retry loops end

A retry loop left on a valid ack goes on to the next chunk, unless the ack ends the last try of the
wrong-ack loop: `tries` is counted up behind it as well, and `tries == MAXTRIES` leaves the file
loop. Where that does not happen, the file loop is left with `isBroken == false` at the end of the
file only (`left_at_eof`).
-/

namespace TcpLike

namespace Sender

variable {c : SenderConfig} {file : Bytes} {s s' : Sender} {i : SenderInput} {o : Outcome}
  {out : List Bytes}

/-- What is received is decoded without an exception, and a valid ack. -/
def Accepts (s : Sender) : SenderInput → Prop
  | .run => False
  | .receive o => (s.retryReceive o).2 = .ok true

instance : Decidable (s.Accepts i) :=
  match i with
  | .run => .isFalse id
  | .receive _ => inferInstanceAs (Decidable (_ = _))

/-- A valid ack ends the last try of the wrong-ack loop. -/
def LastTryAccepted (s : Sender) (i : SenderInput) : Prop :=
  s.pc = .wrongAck ∧ s.tries + 1 = MAXTRIES ∧ s.Accepts i

instance : Decidable (s.LastTryAccepted i) :=
  inferInstanceAs (Decidable (_ ∧ _ ∧ _))

theorem triesInv_step (hT : s.TriesInv) (h : senderStep c s i = some (s', out)) :
    s'.TriesInv := by
  rcases senderStep_cases_or hT h with h | ⟨-, hpc, rfl, -⟩
  · exact h.triesInv hT
  · exact triesInv_withChunk hT hpc

theorem triesInv_init : (Sender.init file).TriesInv := by
  refine ⟨?_, ?_, ?_⟩ <;> simp [Sender.init, MAXTRIES]

/-- A valid ack ends a retry loop, and at all but the last try of the wrong-ack loop the file loop
goes on. -/
theorem fileLoop_of_accepts (hT : s.TriesInv) (hpc : s.pc = .wrongAck ∨ s.pc = .noResponse)
    (ha : s.Accepts i) (hlast : ¬ s.LastTryAccepted i)
    (h : senderStep c s i = some (s', out)) : s'.pc = .fileLoop := by
  rcases i with _ | o
  · exact ha.elim
  rcases hr : s.retryReceive o with ⟨t, v⟩
  have hv : v = .ok true := by
    have : (s.retryReceive o).2 = .ok true := ha
    rwa [hr] at this
  subst hv
  obtain ⟨rfl, -, hvalid⟩ := retryReceive_ok hr
  have ht := (hT.retry hpc).1
  rcases hpc with hpc | hpc
  · have hne : s.tries + 1 ≠ MAXTRIES := fun he => hlast ⟨hpc, he, ha⟩
    simp only [senderStep, hpc, wrongAck, hr, Option.some.injEq] at h
    rw [afterWrongAck, if_neg hne, wrongAckWhile] at h
    simp only [] at h hvalid
    rw [hvalid] at h
    simp only [Bool.not_true, Bool.false_eq_true, false_and, if_false] at h
    cases h
    simp [finallyBlock, hne]
  · simp only [senderStep, hpc, noResponse, hr, Option.some.injEq] at h
    cases h
    rw [finallyBlock_next (by simp only []; omega)]

theorem eof_of_readChunk (h : (s.readChunk c).1.pc = .leftLoop) :
    fisRead (c.WINDOW_SIZE - 24) s.fis = none := by
  unfold readChunk at h
  split at h
  · assumption
  · simp only [] at h
    split at h <;> simp at h

/-- The wait for an ack is given up with `isBroken == true`. -/
theorem isBroken_of_left (hT : s.TriesInv) (hw : s.pc.waiting)
    (hlast : ¬ s.LastTryAccepted (.receive o))
    (h : senderStep c s (.receive o) = some (s', out)) (hpc : s'.pc = .leftLoop) :
    s'.isBroken = true := by
  cases senderStep_waiting hw hT h with
  | retry _ _ hpc' => rcases hpc' with h | h <;> rw [h] at hpc <;> cases hpc
  | next _ _ hpc' =>
    rw [hpc'] at hpc
    cases hpc
  | left _ hp _ ht hb =>
    rcases hb with hb | ⟨-, hwrong, htries, hv⟩
    · exact hb
    · exfalso
      rcases hr : s.retryReceive o with ⟨t, e | valid⟩
      · -- an exception counts the try twice, and `tries` is past `MAXTRIES`
        have ht : t = { s with inPacket := s.packetAfter o } :=
          retryReceive_fst (congrArg Prod.fst hr)
        subst ht
        have htries' : ¬ s.tries + 2 < MAXTRIES ∧ s.tries + 2 ≠ MAXTRIES := by omega
        rw [hp] at hv
        simp only [senderStep, hwrong, wrongAck, hr, Option.some.injEq] at h
        rw [wrongAckLoop, if_neg htries'.1, afterWrongAck, if_neg htries'.2, wrongAckWhile] at h
        simp only [hv, Bool.not_true, Bool.false_eq_true, false_and, if_false] at h
        rw [finallyBlock_next htries'.2] at h
        cases h
        cases hpc
      · obtain ⟨rfl, -, hvalid⟩ := retryReceive_ok hr
        simp only [] at hvalid
        rw [hp, hvalid, Except.ok.injEq] at hv
        subst hv
        exact hlast ⟨hwrong, htries, by rw [Accepts, hr]⟩

/-- The file loop is left in this step, and not given up. -/
theorem eof_of_left (hT : s.TriesInv) (hlast : ¬ s.LastTryAccepted i)
    (h : senderStep c s i = some (s', out)) (hpc : s'.pc = .leftLoop)
    (hb : s'.isBroken = false) :
    s.pc = .fileLoop ∧ fisRead (c.WINDOW_SIZE - 24) s.fis = none ∧ s'.fis = s.fis := by
  rcases senderStep_cases_or hT h with hst | ⟨-, -, rfl, -⟩
  · cases hst with
    | eof hfile =>
      simp only [senderStep, hfile, Option.some.injEq] at h
      exact ⟨hfile, eof_of_readChunk (c := c) (by rw [h]), rfl⟩
    | ack hw =>
      rw [isBroken_of_left hT hw hlast h hpc] at hb
      cases hb
    | resend h0 | passOver h0 =>
      have hpc' : s.pc = .leftLoop := hpc
      rw [h0] at hpc'
      cases hpc'
    | _ => cases hpc
  · cases hpc

/-- The states past the file loop are entered through its end. -/
theorem Step.past_cases (h : Step c s i s' out) (hpc : s'.pc.past) :
    s'.pc = .leftLoop ∨ (s.pc.past ∧ s'.fis = s.fis) := by
  cases h with
  | resend | passOver => exact .inr ⟨hpc, rfl⟩
  | answered | read => cases hpc
  | eof => exact .inl rfl
  | ack _ h =>
    rcases h.pc_cases with (h | h) | h | h
    · rw [h] at hpc
      cases hpc
    · rw [h] at hpc
      cases hpc
    · rw [h] at hpc
      cases hpc
    · exact .inl h
  | failed h | close h | closeAcked h | closeOther h | closeFin h | finOther h =>
    exact .inr ⟨by rw [h]; rfl, rfl⟩
  | closeTimeout h | closeThrows h =>
    rcases h with h | h
    · exact .inr ⟨by rw [h]; rfl, rfl⟩
    · exact .inr ⟨by rw [h]; rfl, rfl⟩

/-- The sender has left its file loop as having sent the file only where `read` says -1. -/
def AtEof (c : SenderConfig) (s : Sender) : Prop :=
  s.pc.past → s.isBroken = false → fisRead (c.WINDOW_SIZE - 24) s.fis = none

theorem AtEof.step (hs : s.AtEof c) (hT : s.TriesInv) (hlast : ¬ s.LastTryAccepted i)
    (h : senderStep c s i = some (s', out)) : s'.AtEof c := by
  intro hpc hb
  rcases senderStep_cases_or hT h with hst | ⟨-, -, rfl, -⟩
  · rcases hst.past_cases hpc with hleft | ⟨hp, hfis⟩
    · obtain ⟨-, heof, hfis⟩ := eof_of_left hT hlast h hleft hb
      rwa [hfis]
    · rw [hfis]
      exact hs hp ((hst.past hp).2 ▸ hb)
  · cases hpc

/-- As long as no valid ack ends the last try of the wrong-ack loop, the file loop is left with
`isBroken == false` at the end of the file only, and a retransmission acknowledged leads to the next
chunk. -/
theorem left_at_eof
    (h : Transition.Run (alone c) (fun s i => ¬ s.LastTryAccepted i) (Sender.init file) s) :
    s.AtEof c ∧
    ∀ i s' out, ¬ s.LastTryAccepted i → senderStep c s i = some (s', out) →
      (s'.pc = .leftLoop → s'.isBroken = false →
        s.pc = .fileLoop ∧ fisRead (c.WINDOW_SIZE - 24) s.fis = none) ∧
      (s.pc = .wrongAck ∨ s.pc = .noResponse → s.Accepts i → s'.pc = .fileLoop) := by
  obtain ⟨hT, hpast⟩ : s.TriesInv ∧ s.AtEof c := by
    refine h.invariant (I := fun s => s.TriesInv ∧ s.AtEof c) (fun s i s' hs hok hstep => ?_)
      ⟨triesInv_init, fun hpc => by cases hpc⟩
    obtain ⟨out, hstep⟩ := alone_eq_some.1 hstep
    exact ⟨triesInv_step hs.1 hstep, hs.2.step hs.1 hok hstep⟩
  refine ⟨hpast, fun i s' out hlast hstep => ⟨fun hpc hb => ?_, fun hpc ha => ?_⟩⟩
  · obtain ⟨hfile, heof, -⟩ := eof_of_left hT hlast hstep hpc hb
    exact ⟨hfile, heof⟩
  · exact fileLoop_of_accepts hT hpc ha hlast hstep

/-- Neither the first segment of a file nor 98 retransmissions of it are acked. -/
def unacked : List SenderInput :=
  [.receive (.datagram sizeReply), .run] ++
    List.replicate 99 (.receive (.datagram sizeReply))

/-- An ack of the first segment of `[7, 8]`. -/
def firstAck : Bytes := tcpHeader 12001 12010 0 1 5 16 25 0 0 24

theorem left_at_eof_oneByte :
    ∃ s s' : Sender, s.pc = .wrongAck ∧ s'.pc = .fileLoop ∧
      alone Config.oneByte.sender s (.receive (.datagram firstAck)) = some s' := by
  have h : ∃ s, Transition.Run (alone Config.oneByte.sender) (fun s i => ¬ s.LastTryAccepted i)
      (Sender.init [7, 8]) s ∧
      decide (s.pc = .wrongAck ∧ ¬ s.LastTryAccepted (.receive (.datagram firstAck)) ∧
        s.Accepts (.receive (.datagram firstAck)) ∧
        (senderStep Config.oneByte.sender s (.receive (.datagram firstAck))).isSome) :=
    Transition.Run.exists_of_exec
      ([.receive (.datagram sizeReply), .run] ++
        List.replicate 2 (.receive (.datagram sizeReply))) _ (by decide +kernel)
  obtain ⟨s, h, hp⟩ := h
  obtain ⟨hpc, hlast, ha, hsome⟩ := of_decide_eq_true hp
  obtain ⟨⟨s', out⟩, hstep⟩ := Option.isSome_iff_exists.1 hsome
  exact ⟨s, s', hpc, ((left_at_eof h).2 _ _ _ hlast hstep).2 (.inl hpc) ha,
    alone_eq_some.2 ⟨out, hstep⟩⟩

/-- A valid ack of the 99th retransmission leaves the file loop, with a chunk still to be read. -/
theorem not_left_at_eof : ¬ ∀ (c : SenderConfig) (file : Bytes) (s : Sender),
    Reachable c file s → ∀ i s' out, senderStep c s i = some (s', out) →
      (s'.pc = .leftLoop → s'.isBroken = false →
        s.pc = .fileLoop ∧ fisRead (c.WINDOW_SIZE - 24) s.fis = none) ∧
      (s.pc = .wrongAck ∨ s.pc = .noResponse → s.Accepts i → s'.pc = .fileLoop) := by
  intro hall
  have h : ∃ s, Reachable Config.oneByte.sender [7, 8] s ∧
      decide (s.pc = .wrongAck ∧
        (senderStep Config.oneByte.sender s (.receive (.datagram firstAck))).any
          fun x => x.1.pc = .leftLoop ∧ x.1.isBroken = false) :=
    Transition.Run.exists_of_exec unacked _ (by decide +kernel)
  obtain ⟨s, h, hp⟩ := h
  obtain ⟨hpc, hany⟩ := of_decide_eq_true hp
  obtain ⟨⟨s', out⟩, hstep, hleft⟩ := (Option.any_eq_true ..).1 hany
  obtain ⟨hpc', hb⟩ := of_decide_eq_true hleft
  have hfile := ((hall _ _ s h _ _ _ hstep).1 hpc' hb).1
  rw [hpc] at hfile
  cases hfile

end Sender

end TcpLike
