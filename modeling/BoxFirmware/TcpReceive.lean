import BoxFirmware.TcpClient

/-! The copy of a received chain of pbufs into `tcp_client_recvbuf`. The buffer is cleared
first and `data_len` runs along the chain, so what stands behind the copied text is the
terminator of the string that is parsed, as long as anything stands there. -/
namespace BoxFirmware.TcpClient
open ByteMem CText

section Copies

theorem copyAt_middle (front rest behind bytes : List UInt8) (room : bytes.length ≤ rest.length) :
    copyAt (front ++ rest ++ behind) front.length bytes =
      front ++ bytes ++ rest.drop bytes.length ++ behind := by
  have before : (front ++ rest ++ behind).take front.length = front := by
    rw [List.append_assoc, List.take_left]
  have after : (front ++ rest ++ behind).drop (front.length + bytes.length) =
      rest.drop bytes.length ++ behind := by
    rw [List.append_assoc, ← List.drop_drop, List.drop_left, List.drop_append_of_le_length room]
  rw [copyAt, before, after, List.append_assoc, List.append_assoc, List.append_assoc]

/-- Behind `data_len` bytes the loop copies what fits of the rest of the chain. -/
theorem copyChain_append (chain : List (List UInt8)) (front rest behind : List UInt8)
    (size : front.length + rest.length = tcpClientRxBufsize) :
    copyChain chain front.length (front ++ rest ++ behind) =
      front ++ chain.flatten.take rest.length ++ rest.drop chain.flatten.length ++ behind := by
  induction chain generalizing front rest with
  | nil => simp [copyChain]
  | cons q chain ih =>
    have left : tcpClientRxBufsize - front.length = rest.length := by omega
    rw [copyChain, left]
    by_cases long : q.length > rest.length
    · -- the rest of the room is filled, and the loop ends
      have full : (q.take rest.length).length = rest.length := by
        rw [List.length_take]
        omega
      rw [if_pos long, copyAt_middle _ _ _ _ (by omega), full, if_pos (by omega),
        List.flatten_cons, List.take_append_of_le_length (by omega), List.drop_length,
        List.drop_eq_nil_of_le (by rw [List.length_append]; omega)]
    · have whole : q.take q.length = q := List.take_length
      have next := ih (front ++ q) (rest.drop q.length) (by
        rw [List.length_append, List.length_drop]
        omega)
      rw [List.length_append, List.length_drop, List.drop_drop] at next
      rw [if_neg long, whole, copyAt_middle _ _ _ _ (by omega), if_neg (by omega), next,
        List.flatten_cons, List.take_append, List.take_of_length_le (show q.length ≤ rest.length by omega),
        List.length_append, List.append_assoc front q]

end Copies

section Receive

def receivedText (chain : List (List UInt8)) : List UInt8 := chain.flatten.take tcpClientRxBufsize

theorem copyChain_received (chain : List (List UInt8)) (behind : List UInt8) :
    copyChain chain 0 (List.replicate tcpClientRxBufsize 0 ++ behind) =
      receivedText chain ++ List.replicate (tcpClientRxBufsize - chain.flatten.length) 0 ++ behind := by
  have copied := copyChain_append chain [] (List.replicate tcpClientRxBufsize 0) behind (by simp)
  simpa [receivedText] using copied

/-- What a received chain should leave: its text, nothing changed outside, and a zero of the
buffer behind the text. -/
structure Copied (chain : List (List UInt8)) (st' : St) : Prop where
  text : receivedText chain <+: st'.recvbuf
  inside : st'.recvbuf.length = tcpClientRxBufsize ∧
    ∀ behind, copyChain chain 0 (List.replicate tcpClientRxBufsize 0 ++ behind) =
      st'.recvbuf ++ behind
  closed : ∃ i, (receivedText chain).length ≤ i ∧ st'.recvbuf[i]? = some 0

variable {env : Env} {chain : List (List UInt8)}

theorem recv_recvbuf (st : St) (got : env.recv = .ok chain) : (recvStep env st).recvbuf =
    receivedText chain ++ List.replicate (tcpClientRxBufsize - chain.flatten.length) 0 := by
  have copied := copyChain_received chain []
  rw [List.append_nil, List.append_nil] at copied
  rw [recvStep, got]
  exact copied

theorem recv_inside (st : St) (got : env.recv = .ok chain) :
    receivedText chain <+: (recvStep env st).recvbuf ∧
      (recvStep env st).recvbuf.length = tcpClientRxBufsize ∧
      ∀ behind, copyChain chain 0 (List.replicate tcpClientRxBufsize 0 ++ behind) =
        (recvStep env st).recvbuf ++ behind := by
  rw [recv_recvbuf st got]
  refine ⟨List.prefix_append _ _, ?_, fun behind => copyChain_received chain behind⟩
  rw [List.length_append, receivedText, List.length_take, List.length_replicate]
  omega

theorem Copied.short {st : St} (got : env.recv = .ok chain) (copied : Copied chain (recvStep env st)) :
    chain.flatten.length < tcpClientRxBufsize := by
  obtain ⟨-, inside, -⟩ := recv_inside st got
  obtain ⟨i, behind, zero⟩ := copied.closed
  have within : i < (recvStep env st).recvbuf.length := by
    by_contra beyond
    rw [List.getElem?_eq_none (by omega)] at zero
    cases zero
  rw [receivedText, List.length_take] at behind
  omega

/-- In `RECV_STEP`, which a failed connect also falls into, a chain is copied and terminated
just when it is shorter than the buffer. -/
theorem recv_copied (env : Env) (st : St) (chain : List (List UInt8)) (got : env.recv = .ok chain) :
    Copied chain (recvStep env st) ↔ chain.flatten.length < tcpClientRxBufsize := by
  constructor
  · exact Copied.short got
  · intro short
    obtain ⟨text, inside⟩ := recv_inside st got
    have length : (receivedText chain).length = chain.flatten.length := by
      rw [receivedText, List.length_take]
      omega
    refine ⟨text, inside, chain.flatten.length, Nat.le_of_eq length, ?_⟩
    rw [recv_recvbuf st got, List.getElem?_append_right (by omega), List.getElem?_replicate,
      if_pos (by omega)]

theorem recv_copied_two :
    Copied [ascii "hi,this is ", ascii "MessageServer"]
      (recvStep { answer [] with recv := .ok [ascii "hi,this is ", ascii "MessageServer"] }
        (runThread (answer []) blank (fun _ => 0) [answer []])) :=
  (recv_copied _ _ _ rfl).mpr (by decide +kernel)

/-- A chain that fills the buffer leaves no terminator in it. -/
theorem recv_unterminated :
    ∃ env st chain, st.status = .running ∧ st.step = .recv ∧ env.recv = .ok chain ∧
      chain.flatten.length = 2000 ∧ ¬ Copied chain (tcpClientStep env st) := by
  have running : (runThread (answer []) blank (fun _ => 0) [answer []]).status = .running := by
    decide +kernel
  have waits : (runThread (answer []) blank (fun _ => 0) [answer []]).step = .recv := by
    decide +kernel
  have size : [List.replicate 2000 (97 : UInt8)].flatten.length = 2000 := by
    rw [List.flatten_singleton, List.length_replicate]
  refine ⟨answer (List.replicate 2000 97), _, _, running, waits, rfl, size, fun copied => ?_⟩
  rw [tcpClientStep, if_neg (not_not.mpr running), waits] at copied
  have short := copied.short rfl
  rw [size] at short
  exact absurd short (by decide)

end Receive

end BoxFirmware.TcpClient
