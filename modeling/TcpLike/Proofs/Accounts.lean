import TcpLike.Proofs.Wire

/-!
# The accounts of the sender

What the sender reports at its end, set against a record of its run: the chunks `fis.read` has given
it and the datagrams it has sent. `seqNum` and `TOTAL_BYTE` are the bytes read, `ackNum - 1` the
chunks, and as `int`s `SEGMENT_NUM` is the data datagrams sent and `RETRANSMIT_NUM` those of them
that are no first transmission (`counters_balanced`).
-/

namespace TcpLike

namespace Sender

/-- Something follows the header. -/
def carriesData (d : Bytes) : Bool := 24 < d.length

/-- What a run of the sender has read and sent. -/
structure Account where
  chunks : List Bytes
  datagrams : List Bytes
  deriving DecidableEq, Repr

/-- What the step reads of the file: the result of `fis.read(buf)`, unless that is -1. -/
def chunkRead (c : SenderConfig) (s : Sender) : SenderInput → Option Bytes
  | .run => if s.pc = .fileLoop then fisRead (c.WINDOW_SIZE - 24) s.fis else none
  | .receive _ => none

/-- The account with a step entered. -/
def Account.note (c : SenderConfig) (s : Sender) (i : SenderInput) (out : List Bytes)
    (a : Account) : Account :=
  ⟨a.chunks ++ (s.chunkRead c i).toList, a.datagrams ++ out⟩

/-- The sender can get to `s`, with `a` the account of the way there. -/
abbrev Recorded (c : SenderConfig) (file : Bytes) (s : Sender) (a : Account) : Prop :=
  Transition.Run (Transition.recorded (senderStep c) (Account.note c)) (fun _ _ => True)
    (Sender.init file, ⟨[], []⟩) (s, a)

/-- The counters agree with the account. -/
structure Balanced (file : Bytes) (s : Sender) (a : Account) : Prop where
  fis : a.chunks.flatten ++ s.fis = file
  seqNum : s.seqNum = a.chunks.flatten.length
  TOTAL_BYTE : s.TOTAL_BYTE = a.chunks.flatten.length
  ackNum : s.ackNum = a.chunks.length + 1
  SEGMENT_NUM : s.SEGMENT_NUM ≡ a.datagrams.countP carriesData [ZMOD 2 ^ 32]
  RETRANSMIT_NUM : s.SEGMENT_NUM - s.RETRANSMIT_NUM ≡ a.chunks.length [ZMOD 2 ^ 32]

/-- Every datagram sent is counted as a segment and as a repeat. -/
structure CountsRepeats (s : Sender) (x : Sender × List Bytes) : Prop where
  SEGMENT_NUM : x.1.SEGMENT_NUM ≡ s.SEGMENT_NUM + x.2.length [ZMOD 2 ^ 32]
  RETRANSMIT_NUM : x.1.RETRANSMIT_NUM ≡ s.RETRANSMIT_NUM + x.2.length [ZMOD 2 ^ 32]

variable {c : SenderConfig} {file : Bytes} {s s' : Sender} {i : SenderInput} {o : Outcome}
  {out : List Bytes} {a a' : Account}

/-! ## The retry loops -/

theorem countsRepeats_retransmit (s : Sender) : CountsRepeats s (s.retransmit c) :=
  ⟨int32_modEq _, int32_modEq _⟩

theorem countsRepeats_finallyBlock (s : Sender) : CountsRepeats s (s.finallyBlock, []) :=
  ⟨by simp [finallyBlock], by simp [finallyBlock]⟩

/-- The retry loops set no counter but by a retransmission. -/
theorem CountsRepeats.of_eq {t : Sender} {x : Sender × List Bytes} (h : CountsRepeats t x)
    (hs : t.SEGMENT_NUM = s.SEGMENT_NUM) (hr : t.RETRANSMIT_NUM = s.RETRANSMIT_NUM) :
    CountsRepeats s x :=
  ⟨hs ▸ h.SEGMENT_NUM, hr ▸ h.RETRANSMIT_NUM⟩

theorem countsRepeats_noResponseLoop (s : Sender) : CountsRepeats s (s.noResponseLoop c) := by
  unfold noResponseLoop
  split_ifs
  · exact (countsRepeats_retransmit _).of_eq rfl rfl
  · exact countsRepeats_finallyBlock s

theorem countsRepeats_catchBlock (s : Sender) : CountsRepeats s (s.catchBlock c) :=
  (countsRepeats_noResponseLoop _).of_eq rfl rfl

theorem countsRepeats_wrongAckWhile (s : Sender) : CountsRepeats s (s.wrongAckWhile c) := by
  unfold wrongAckWhile
  split
  · exact countsRepeats_catchBlock s
  · split_ifs
    · exact (countsRepeats_retransmit _).of_eq rfl rfl
    · exact countsRepeats_finallyBlock s

theorem countsRepeats_afterWrongAck (s : Sender) : CountsRepeats s (s.afterWrongAck c) := by
  unfold afterWrongAck
  split_ifs
  · exact countsRepeats_finallyBlock s
  · exact countsRepeats_wrongAckWhile s

theorem countsRepeats_wrongAckLoop (s : Sender) : CountsRepeats s (s.wrongAckLoop c) := by
  unfold wrongAckLoop
  split_ifs
  · exact (countsRepeats_retransmit _).of_eq rfl rfl
  · exact countsRepeats_afterWrongAck s

theorem countsRepeats_firstReceive (s : Sender) (o : Outcome) :
    CountsRepeats s (s.firstReceive c o) := by
  have hfst := receiveAck_fst s o
  unfold firstReceive
  rcases hr : s.receiveAck o with ⟨t, e | u⟩ <;> rw [hr] at hfst <;> simp only [] at hfst <;>
    subst hfst
  · exact (countsRepeats_catchBlock _).of_eq rfl rfl
  · exact (countsRepeats_wrongAckWhile _).of_eq rfl rfl

theorem countsRepeats_wrongAck (s : Sender) (o : Outcome) :
    CountsRepeats s (s.wrongAck c o) := by
  unfold wrongAck
  rcases hr : s.retryReceive o with ⟨t, v⟩
  have ht := retryReceive_fst (congrArg Prod.fst hr)
  subst ht
  rcases v with e | _ | _
  · exact (countsRepeats_wrongAckLoop _).of_eq rfl rfl
  · exact (countsRepeats_wrongAckLoop _).of_eq rfl rfl
  · exact (countsRepeats_afterWrongAck _).of_eq rfl rfl

theorem countsRepeats_noResponse (s : Sender) (o : Outcome) :
    CountsRepeats s (s.noResponse c o) := by
  unfold noResponse
  rcases hr : s.retryReceive o with ⟨t, v⟩
  have ht := retryReceive_fst (congrArg Prod.fst hr)
  subst ht
  rcases v with e | _ | _
  · exact (countsRepeats_noResponseLoop _).of_eq rfl rfl
  · exact (countsRepeats_noResponseLoop _).of_eq rfl rfl
  · exact (countsRepeats_finallyBlock _).of_eq rfl rfl

theorem countsRepeats_waiting (hw : s.pc.waiting)
    (h : senderStep c s (.receive o) = some (s', out)) : CountsRepeats s (s', out) := by
  unfold senderStep at h
  rcases hpc : s.pc <;> rw [hpc] at h hw <;> simp only [SenderPc.waiting, Bool.false_eq_true] at hw
  · have hfirst : s.firstReceive c o = (s', out) := Option.some.inj h
    exact hfirst ▸ countsRepeats_firstReceive s o
  · have hwrong : s.wrongAck c o = (s', out) := Option.some.inj h
    exact hwrong ▸ countsRepeats_wrongAck s o
  · have hno : s.noResponse c o = (s', out) := Option.some.inj h
    exact hno ▸ countsRepeats_noResponse s o

/-! ## One step -/

theorem balanced_init : (Sender.init file).Balanced file ⟨[], []⟩ where
  fis := rfl
  seqNum := rfl
  TOTAL_BYTE := rfl
  ackNum := rfl
  SEGMENT_NUM := rfl
  RETRANSMIT_NUM := rfl

theorem note_of_no_chunk (hr : s.chunkRead c i = none) :
    a.note c s i out = ⟨a.chunks, a.datagrams ++ out⟩ := by
  simp [Account.note, hr]

/-- A step that reads nothing counts each data datagram it sends as a repeat. -/
theorem Balanced.keep (h : s.Balanced file a) (hr : s.chunkRead c i = none)
    (fis : s'.fis = s.fis) (seqNum : s'.seqNum = s.seqNum)
    (TOTAL_BYTE : s'.TOTAL_BYTE = s.TOTAL_BYTE) (ackNum : s'.ackNum = s.ackNum)
    (SEGMENT_NUM : s'.SEGMENT_NUM ≡ s.SEGMENT_NUM + out.countP carriesData [ZMOD 2 ^ 32])
    (RETRANSMIT_NUM : s'.RETRANSMIT_NUM ≡ s.RETRANSMIT_NUM + out.countP carriesData [ZMOD 2 ^ 32]) :
    s'.Balanced file (a.note c s i out) := by
  rw [note_of_no_chunk hr]
  refine ⟨fis ▸ h.fis, seqNum.trans h.seqNum, TOTAL_BYTE.trans h.TOTAL_BYTE,
    ackNum.trans h.ackNum, ?_, ?_⟩
  · rw [List.countP_append, Nat.cast_add]
    exact SEGMENT_NUM.trans (h.SEGMENT_NUM.add_right _)
  · have hsub := SEGMENT_NUM.sub RETRANSMIT_NUM
    rw [add_sub_add_right_eq_sub] at hsub
    exact hsub.trans h.RETRANSMIT_NUM

/-- A step that sends no data leaves the counters as they are. -/
theorem Balanced.quiet (h : s.Balanced file a) (hr : s.chunkRead c i = none)
    (hl : s'.fis = s.fis ∧ s'.seqNum = s.seqNum ∧ s'.TOTAL_BYTE = s.TOTAL_BYTE ∧
      s'.ackNum = s.ackNum ∧ s'.SEGMENT_NUM = s.SEGMENT_NUM ∧
      s'.RETRANSMIT_NUM = s.RETRANSMIT_NUM)
    (hout : out.countP carriesData = 0) : s'.Balanced file (a.note c s i out) := by
  obtain ⟨hfis, hseq, htotal, hack, hseg, hret⟩ := hl
  refine h.keep hr hfis hseq htotal hack ?_ ?_
  · rw [hseg, hout, Nat.cast_zero, add_zero]
  · rw [hret, hout, Nat.cast_zero, add_zero]

theorem carriesData_dataSegment (hW : 24 < c.WINDOW_SIZE) {k : ℕ}
    (hk : k * c.chunkSize < file.length) : carriesData (dataSegment c file k) = true := by
  have hpos := length_chunk_pos hW hk
  rw [carriesData, dataSegment, length_segment]
  exact decide_eq_true (by omega)

theorem Balanced.ack (hW : 24 < c.WINDOW_SIZE) (hs : s.Inv c file) (h : s.Balanced file a)
    (hw : s.pc.waiting) (hst : AckStep c s o (s', out))
    (hstep : senderStep c s (.receive o) = some (s', out)) :
    s'.Balanced file (a.note c s (.receive o) out) := by
  obtain ⟨hseg, hret⟩ := countsRepeats_waiting hw hstep
  obtain ⟨k, hk, hh⟩ := hs.held hw
  have hdata : out.countP carriesData = out.length := by
    refine List.countP_eq_length.2 fun d hd => ?_
    rw [hst.mem_out hd, hh.current]
    exact carriesData_dataSegment hW (hs.read k (by omega)).1
  rw [← hdata] at hseg hret
  have hkept := hst.kept
  exact h.keep rfl hkept.fis hkept.seqNum hkept.TOTAL_BYTE hkept.ackNum hseg hret

theorem chunkRead_data (hW : 24 < c.WINDOW_SIZE) (hpc : s.pc = .fileLoop) (hf : s.fis ≠ []) :
    s.chunkRead c .run = some (s.fis.take c.chunkSize) := by
  have hsize : c.WINDOW_SIZE - 24 ≠ 0 := by omega
  unfold chunkRead fisRead
  simp only []
  rw [if_pos hpc, if_neg hsize, if_neg hf]
  rfl

theorem chunkRead_eof (hW : 24 < c.WINDOW_SIZE) (hf : s.fis = []) : s.chunkRead c .run = none := by
  have hsize : c.WINDOW_SIZE - 24 ≠ 0 := by omega
  unfold chunkRead fisRead
  simp only []
  rw [if_neg hsize, if_pos hf, ite_self]

theorem note_of_chunk {data : Bytes} (hr : s.chunkRead c i = some data) :
    a.note c s i out = ⟨a.chunks ++ [data], a.datagrams ++ out⟩ := by
  simp [Account.note, hr]

/-- The first transmission of a chunk. -/
theorem Balanced.read (hW : 24 < c.WINDOW_SIZE) (hfile : file.length ≤ 2 ^ 31 - 1)
    (h : s.Balanced file a) (hpc : s.pc = .fileLoop) (hf : s.fis ≠ []) :
    (s.withChunk c).Balanced file
      (a.note c s .run [segment c s.seqNum s.ackNum (s.fis.take c.chunkSize)]) := by
  rw [note_of_chunk (chunkRead_data hW hpc hf)]
  have hsplit : s.fis.take c.chunkSize ++ s.fis.drop (s.fis.take c.chunkSize).length = s.fis :=
    List.prefix_iff_eq_append.1 (List.take_prefix _ _)
  have hflat : (a.chunks ++ [s.fis.take c.chunkSize]).flatten
      = a.chunks.flatten ++ s.fis.take c.chunkSize := by
    rw [List.flatten_append, List.flatten_singleton]
  have hread : (a.chunks ++ [s.fis.take c.chunkSize]).flatten ++ (s.withChunk c).fis = file := by
    rw [hflat, List.append_assoc]
    exact (congrArg (a.chunks.flatten ++ ·) hsplit).trans h.fis
  have hlen : (a.chunks ++ [s.fis.take c.chunkSize]).flatten.length
      = a.chunks.flatten.length + (s.fis.take c.chunkSize).length := by
    rw [hflat, List.length_append]
  have hle : (a.chunks ++ [s.fis.take c.chunkSize]).flatten.length ≤ file.length := by
    rw [← hread, List.length_append]
    exact Nat.le_add_right _ _
  have hdata : carriesData (segment c s.seqNum s.ackNum (s.fis.take c.chunkSize)) = true := by
    have hpos := List.length_pos_iff.2 hf
    rw [carriesData, length_segment, List.length_take, SenderConfig.chunkSize]
    exact decide_eq_true (by omega)
  refine ⟨hread, ?_, ?_, ?_, ?_, ?_⟩
  · rw [hlen, ← h.seqNum]
    rfl
  · have htotal : (s.withChunk c).TOTAL_BYTE
        = int32 (s.TOTAL_BYTE + (s.fis.take c.chunkSize).length) := rfl
    rw [htotal, h.TOTAL_BYTE, hlen, int32_of_lt (by omega) (by omega), Nat.cast_add]
  · rw [List.length_append, List.length_singleton]
    exact congrArg (· + 1) h.ackNum
  · rw [List.countP_append, List.countP_singleton, if_pos hdata, Nat.cast_add]
    exact (int32_modEq _).trans (h.SEGMENT_NUM.add_right 1)
  · rw [List.length_append, Nat.cast_add]
    have hseg : (s.withChunk c).SEGMENT_NUM ≡ s.SEGMENT_NUM + 1 [ZMOD 2 ^ 32] := int32_modEq _
    have hsub := hseg.sub_right s.RETRANSMIT_NUM
    rw [add_sub_right_comm] at hsub
    exact hsub.trans (h.RETRANSMIT_NUM.add_right 1)

theorem Balanced.step (hW : 24 < c.WINDOW_SIZE) (hfile : file.length ≤ 2 ^ 31 - 1)
    (hs : s.Inv c file) (h : s.Balanced file a) (hstep : senderStep c s i = some (s', out)) :
    s'.Balanced file (a.note c s i out) := by
  have hst := senderStep_cases hW hs.tries hstep
  have hno : s.pc ≠ .fileLoop → s.chunkRead c .run = none := fun hpc => if_neg hpc
  cases hst with
  | read hpc hf => exact h.read hW hfile hpc hf
  | ack hw hst => exact h.ack hW hs hw hst hstep
  | eof hpc hf => exact h.quiet (chunkRead_eof hW hf) ⟨rfl, rfl, rfl, rfl, rfl, rfl⟩ rfl
  | failed hpc | close hpc =>
    exact h.quiet (hno (by rw [hpc]; simp)) ⟨rfl, rfl, rfl, rfl, rfl, rfl⟩ rfl
  | _ => exact h.quiet rfl ⟨rfl, rfl, rfl, rfl, rfl, rfl⟩ rfl

/-! ## Runs -/

theorem balanced_of_run (hW : 24 < c.WINDOW_SIZE) (hfile : file.length ≤ 2 ^ 31 - 1)
    (h : Recorded c file s a) : s.Balanced file a := by
  refine h.invariant_along (I := fun x => x.1.Balanced file x.2) (fun x i y hrun hx _ hstep => ?_)
    balanced_init
  obtain ⟨out, hstep, hnote⟩ := Transition.recorded_eq_some.1 hstep
  have hs : x.1.Inv c file := inv_of_reachable hW hrun.forget
  exact hnote ▸ hx.step hW hfile hs hstep

/-- At the head of the file loop, behind any of its exits and at every receive, the counters agree
with what has been read and sent. -/
theorem counters_balanced (hW : 24 < c.WINDOW_SIZE) (hfile : file.length ≤ 2 ^ 31 - 1)
    (h : Recorded c file s a) :
    ((s.seqNum : ℤ) = s.TOTAL_BYTE ∧ s.seqNum = a.chunks.flatten.length ∧
      a.chunks.flatten ++ s.fis = file) ∧
    (s.ackNum : ℤ) - 1 = a.chunks.length ∧
    s.SEGMENT_NUM ≡ a.datagrams.countP carriesData [ZMOD 2 ^ 32] ∧
    s.SEGMENT_NUM - s.RETRANSMIT_NUM ≡ s.ackNum - 1 [ZMOD 2 ^ 32] := by
  have hb := balanced_of_run hW hfile h
  have hack : (s.ackNum : ℤ) - 1 = a.chunks.length := by
    rw [hb.ackNum, Nat.cast_add_one, add_sub_cancel_right]
  refine ⟨⟨?_, hb.seqNum, hb.fis⟩, hack, hb.SEGMENT_NUM, ?_⟩
  · rw [hb.TOTAL_BYTE, hb.seqNum]
  · rw [hack]
    exact hb.RETRANSMIT_NUM

/-- The first of two chunks, acked at its third transmission: a timeout and a wrong ack before. -/
theorem counters_balanced_oneByte :
    ∃ (s : Sender) (a : Account), s.pc = .fileLoop ∧ a.datagrams.countP carriesData = 3 ∧
      s.RETRANSMIT_NUM = 2 ∧ a.chunks.flatten ++ s.fis = [7, 8] ∧
      s.SEGMENT_NUM ≡ a.datagrams.countP carriesData [ZMOD 2 ^ 32] ∧
      s.SEGMENT_NUM - s.RETRANSMIT_NUM ≡ s.ackNum - 1 [ZMOD 2 ^ 32] := by
  have h : ∃ x : Sender × Account,
      Transition.Run (Transition.recorded (senderStep Config.oneByte.sender)
        (Account.note Config.oneByte.sender)) (fun _ _ => True)
        (Sender.init [7, 8], ⟨[], []⟩) x ∧
      decide (x.1.pc = .fileLoop ∧ x.2.datagrams.countP carriesData = 3 ∧
        x.1.RETRANSMIT_NUM = 2) :=
    Transition.Run.exists_of_exec
      [.receive (.datagram sizeReply), .run, .receive .timeout, .receive (.datagram sizeReply),
        .receive (.datagram (tcpHeader 12001 12010 0 1 5 16 25 0 0 24))] _ (by decide +kernel)
  obtain ⟨⟨s, a⟩, h, hp⟩ := h
  obtain ⟨hpc, hcount, hret⟩ := of_decide_eq_true hp
  obtain ⟨⟨-, -, hfis⟩, -, hseg, hdiff⟩ := counters_balanced (by decide) (by decide) h
  exact ⟨s, a, hpc, hcount, hret, hfis, hseg, hdiff⟩

end Sender

end TcpLike
