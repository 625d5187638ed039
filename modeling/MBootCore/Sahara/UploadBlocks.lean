import MBootCore.Sahara.ProtocolSpec

/-!
# Sahara — UploadBlocks

What `uploadProgrammer` writes, whatever the device asks for: the blocks of the
image for the first requests, one for each, and nothing for a request that is not
all in the image.
-/

namespace MBootCore

/-- What a READ_DATA packet asks for. -/
structure DataRequest where
  imageId : UInt32
  dataOffset : UInt32
  dataLength : UInt32
  deriving DecidableEq, Repr

namespace DataRequest

def packet (r : DataRequest) : SaharaPacket := .readData r.imageId r.dataOffset r.dataLength

def Inside (programmerData : ByteBuffer) (r : DataRequest) : Prop :=
  r.dataOffset.toNat + r.dataLength.toNat ≤ programmerData.length

def block (programmerData : ByteBuffer) (r : DataRequest) : ByteBuffer :=
  (programmerData.drop r.dataOffset.toNat).take r.dataLength.toNat

theorem packet_injective {r r' : DataRequest} (h : r.packet = r'.packet) : r = r' := by
  obtain ⟨imageId, dataOffset, dataLength⟩ := r
  obtain ⟨imageId', dataOffset', dataLength'⟩ := r'
  cases h
  rfl

end DataRequest

namespace SaharaProtocol

/-- The upload writes the blocks of these requests, the first ones of the device, and
no others. -/
structure Serves (programmerData : ByteBuffer) (s : SaharaProtocol) (requests : List DataRequest)
    (outcome : Except ErrorCode Unit × SaharaProtocol) : Prop where
  written : outcome.2.transport.written
    = s.transport.written ++ requests.map (DataRequest.block programmerData)
  asked : ∀ k r, requests[k]? = some r → s.packetAt k = .ok r.packet
  inside : ∀ r ∈ requests, r.Inside programmerData
  accepted : outcome.1 = .ok () →
    ∃ imageId, s.packetAt requests.length = .ok (.endImageTransfer imageId 0)
  refused : ∀ r : DataRequest, s.packetAt requests.length = .ok r.packet →
    (∀ k < requests.length, s.writeOk k = true) →
    ¬ r.Inside programmerData ∧ outcome.1 = .error .invalidPacket

variable {programmerData : ByteBuffer} {s t : SaharaProtocol}

/-! ## One round -/

theorem writeOk_eq (s : SaharaProtocol) (data : ByteBuffer) :
    s.writeOk 0 = (s.transport.writeResult data).isOk := by
  rw [writeOk, Transport.writeResult, List.head?_eq_getElem?]
  cases s.transport.writeResults[0]? with
  | none => rfl
  | some result => cases result <;> rfl

/-- After a request was read and its block handed to the transport. -/
structure Answered (programmerData : ByteBuffer) (r : DataRequest) (s t : SaharaProtocol) :
    Prop where
  written : t.transport.written = s.transport.written ++ [r.block programmerData]
  packetAt : ∀ k, t.packetAt k = s.packetAt (k + 1)
  writeOk : ∀ k, t.writeOk k = s.writeOk (k + 1)
  replies : t.transport.replies = s.transport.replies.tail

theorem answered_of_transport {r : DataRequest} (h : t.transport
    = (s.afterRead.afterWrite (r.block programmerData)).transport) :
    Answered programmerData r s t where
  written := by
    rw [h]
    rfl
  packetAt k := by
    rw [packetAt_congr (congrArg Transport.replies h), packetAt_afterWrite, packetAt_afterRead]
  writeOk k := by
    rw [writeOk_congr (congrArg Transport.writeResults h), writeOk_afterWrite, writeOk_afterRead]
  replies := by
    rw [h]
    rfl

/-- A request that is not all in the image ends the round with an error, before a
write. For any other one the block is written, and the round goes on unless the
write fails. -/
theorem uploadRound_request (programmerData : ByteBuffer) {r : DataRequest}
    (h : s.packetAt 0 = .ok r.packet) :
    (¬ r.Inside programmerData ∧ ∃ t, uploadRound programmerData s = (.error .invalidPacket, t) ∧
        t.transport.written = s.transport.written) ∨
      r.Inside programmerData ∧ ∃ t, Answered programmerData r s t ∧
        (s.writeOk 0 = true ∧ uploadRound programmerData s = (.ok true, t) ∨
          s.writeOk 0 = false ∧ ∃ e, uploadRound programmerData s = (.error e, t)) := by
  let s₁ := (fire .readDataReceived (accept 0x03 r.packet s.afterRead).2).2
  have hround : uploadRound programmerData s =
      (if r.dataLength.toNat > programmerData.length ∨
          r.dataOffset.toNat > programmerData.length - r.dataLength.toNat then
        Program.fail .invalidPacket
      else do
        let _ ← transportWrite (r.block programmerData)
        fire .dataSent
        pure true : Method Bool) s₁ := by
    rw [uploadRound, Program.run_bind, receivePacket_run, h]
    rfl
  by_cases hinside : r.Inside programmerData
  · have hrange : ¬ (r.dataLength.toNat > programmerData.length ∨
        r.dataOffset.toNat > programmerData.length - r.dataLength.toNat) := by
      rw [DataRequest.Inside] at hinside
      omega
    rw [if_neg hrange] at hround
    refine .inr ⟨hinside, ?_⟩
    have hwrites : s.writeOk 0 = s₁.writeOk 0 := writeOk_congr rfl 0
    rw [writeOk_eq s₁ (r.block programmerData)] at hwrites
    rcases hwrite : transportWrite (r.block programmerData) s₁ with ⟨e | n, t⟩
    · have hresult : s₁.transport.writeResult (r.block programmerData) = .error e :=
        congrArg Prod.fst hwrite
      have hstate : (transportWrite (r.block programmerData) s₁).2 = t := congrArg Prod.snd hwrite
      rw [hresult] at hwrites
      refine ⟨t, answered_of_transport ?_, .inr ⟨hwrites, e, ?_⟩⟩
      · rw [← hstate]
        rfl
      · rw [hround, Program.run_bind_error hwrite]
    · have hresult : s₁.transport.writeResult (r.block programmerData) = .ok n :=
        congrArg Prod.fst hwrite
      have hstate : (transportWrite (r.block programmerData) s₁).2 = t := congrArg Prod.snd hwrite
      rw [hresult] at hwrites
      refine ⟨(fire .dataSent t).2, answered_of_transport ?_, .inl ⟨hwrites, ?_⟩⟩
      · rw [← hstate]
        rfl
      · rw [hround, Program.run_bind_ok hwrite]
        rfl
  · have hrange : r.dataLength.toNat > programmerData.length ∨
        r.dataOffset.toNat > programmerData.length - r.dataLength.toNat := by
      rw [DataRequest.Inside] at hinside
      omega
    rw [if_pos hrange] at hround
    exact .inl ⟨hinside, s₁, hround, rfl⟩

/-- Without a request nothing is written, and only END_IMAGE with status 0 ends the
loop without an error. -/
theorem uploadRound_noRequest (programmerData : ByteBuffer)
    (h : ∀ r : DataRequest, s.packetAt 0 ≠ .ok r.packet) :
    ∃ t, t.transport.written = s.transport.written ∧
      ((∃ e, uploadRound programmerData s = (.error e, t)) ∨
        ∃ imageId, s.packetAt 0 = .ok (.endImageTransfer imageId 0) ∧
          uploadRound programmerData s = (.ok false, t)) := by
  cases hpacket : s.packetAt 0 with
  | error e =>
    refine ⟨s.afterRead, rfl, .inl ⟨e, ?_⟩⟩
    rw [uploadRound, Program.run_bind, receivePacket_run, hpacket]
  | ok packet =>
    by_cases hcmd : packet.command ≠ 0x03 ∧ packet.command ≠ 0x04
    · refine ⟨s.afterRead, rfl, .inl ⟨.unexpectedPacket, ?_⟩⟩
      rw [uploadRound, Program.run_bind, receivePacket_run, hpacket]
      simp only [if_pos hcmd]
    · cases packet with
      | endImageTransfer imageId status =>
        let s₁ := (accept 0x04 (.endImageTransfer imageId status) s.afterRead).2
        have hround : uploadRound programmerData s = (if status ≠ 0 then do
            pushError .saharaNakReadDataError
            Program.fail .saharaNakReadDataError
          else pure false : Method Bool) s₁ := by
          rw [uploadRound, Program.run_bind, receivePacket_run, hpacket]
          rfl
        by_cases hstatus : status ≠ 0
        · rw [if_pos hstatus] at hround
          exact ⟨(pushError .saharaNakReadDataError s₁).2, rfl, .inl ⟨_, hround⟩⟩
        · obtain rfl : status = 0 := by simpa using hstatus
          rw [if_neg hstatus] at hround
          exact ⟨s₁, rfl, .inr ⟨imageId, rfl, hround⟩⟩
      | readData imageId dataOffset dataLength =>
        exact absurd hpacket (h ⟨imageId, dataOffset, dataLength⟩)
      | _ => exact absurd (by simp [SaharaPacket.command]) hcmd

/-! ## The loop -/

theorem serves_nil {outcome : Except ErrorCode Unit × SaharaProtocol}
    (hwritten : outcome.2.transport.written = s.transport.written)
    (haccepted : outcome.1 = .ok () → ∃ imageId, s.packetAt 0 = .ok (.endImageTransfer imageId 0))
    (hrefused : ∀ r : DataRequest, s.packetAt 0 = .ok r.packet →
      ¬ r.Inside programmerData ∧ outcome.1 = .error .invalidPacket) :
    Serves programmerData s [] outcome where
  written := by rw [hwritten, List.map_nil, List.append_nil]
  asked _ _ hr := by cases hr
  inside _ hr := by cases hr
  accepted := haccepted
  refused r hr _ := hrefused r hr

/-- What a served request adds to what is served after it. -/
theorem Serves.cons {r : DataRequest} {requests : List DataRequest}
    {outcome : Except ErrorCode Unit × SaharaProtocol} (hpacket : s.packetAt 0 = .ok r.packet)
    (hinside : r.Inside programmerData) (hanswered : Answered programmerData r s t)
    (h : Serves programmerData t requests outcome) :
    Serves programmerData s (r :: requests) outcome where
  written := by
    rw [h.written, hanswered.written, List.append_assoc]
    rfl
  asked k r' hr' := by
    cases k with
    | zero =>
      cases hr'
      exact hpacket
    | succ k =>
      rw [← hanswered.packetAt]
      exact h.asked k r' hr'
  inside r' hr' := by
    rcases List.mem_cons.mp hr' with rfl | hr'
    · exact hinside
    · exact h.inside r' hr'
  accepted hok := by
    rw [List.length_cons, ← hanswered.packetAt]
    exact h.accepted hok
  refused r' hr' hwrites := by
    rw [List.length_cons, ← hanswered.packetAt] at hr'
    refine h.refused r' hr' fun k hk => ?_
    rw [hanswered.writeOk]
    exact hwrites (k + 1) (Nat.succ_lt_succ hk)

theorem uploadLoop_serves (programmerData : ByteBuffer) {fuel : Nat} {s : SaharaProtocol}
    (hfuel : s.transport.replies.length < fuel) :
    ∃ requests, Serves programmerData s requests (uploadLoop programmerData fuel s) := by
  induction fuel generalizing s with
  | zero => exact absurd hfuel (Nat.not_lt_zero _)
  | succ fuel ih =>
    by_cases hrequest : ∃ r : DataRequest, s.packetAt 0 = .ok r.packet
    · obtain ⟨r, hpacket⟩ := hrequest
      rcases uploadRound_request programmerData hpacket with
        ⟨houtside, t, hround, hwritten⟩ | ⟨hinside, t, hanswered, hround⟩
      · refine ⟨[], ?_⟩
        rw [uploadLoop, Program.repeatWhile_error hround]
        refine serves_nil hwritten (fun hok => absurd hok (by simp)) fun r' hr' => ?_
        rw [hpacket] at hr'
        rw [← DataRequest.packet_injective (Except.ok.inj hr')]
        exact ⟨houtside, rfl⟩
      · have hreplies : 0 < s.transport.replies.length :=
          List.length_pos_iff.mpr (replies_ne_nil_of_packetAt hpacket)
        rcases hround with ⟨-, hround⟩ | ⟨hfailed, e, hround⟩
        · have hless : t.transport.replies.length < fuel := by
            rw [hanswered.replies, List.length_tail]
            omega
          obtain ⟨requests, hserves⟩ := ih hless
          refine ⟨r :: requests, ?_⟩
          rw [uploadLoop, Program.repeatWhile_continue hround]
          exact hserves.cons hpacket hinside hanswered
        · refine ⟨[r], ?_⟩
          rw [uploadLoop, Program.repeatWhile_error hround]
          refine ⟨hanswered.written, fun k r' hr' => ?_, ?_, fun hok => absurd hok (by simp), ?_⟩
          · obtain ⟨rfl, rfl⟩ : k = 0 ∧ r = r' := by
              cases k with
              | zero => exact ⟨rfl, Option.some.inj hr'⟩
              | succ k => cases hr'
            exact hpacket
          · intro r' hr'
            rw [List.mem_singleton.mp hr']
            exact hinside
          · intro r' _ hwrites
            rw [hwrites 0 Nat.zero_lt_one] at hfailed
            cases hfailed
    · have hnone : ∀ r : DataRequest, s.packetAt 0 ≠ .ok r.packet :=
        fun r hr => hrequest ⟨r, hr⟩
      obtain ⟨t, hwritten, hround⟩ := uploadRound_noRequest programmerData hnone
      refine ⟨[], ?_⟩
      rcases hround with ⟨e, hround⟩ | ⟨imageId, hpacket, hround⟩
      · rw [uploadLoop, Program.repeatWhile_error hround]
        exact serves_nil hwritten (fun hok => absurd hok (by simp)) fun r hr => absurd hr (hnone r)
      · rw [uploadLoop, Program.repeatWhile_break hround]
        exact serves_nil hwritten (fun _ => ⟨imageId, hpacket⟩) fun r hr => absurd hr (hnone r)

/-- Each block that is written is the bytes the device asked for, all of them in the
image and in the order of the requests. A request outside of the image ends the
upload with an error before anything is written for it, and only END_IMAGE with
status 0 ends it well. -/
theorem uploadProgrammer_serves (programmerData : ByteBuffer) (s : SaharaProtocol) :
    ∃ requests, Serves programmerData s requests (uploadProgrammer programmerData s) ∧
      ∀ k, ∀ r : DataRequest, s.packetAt k = .ok r.packet → ¬ r.Inside programmerData →
        requests.length ≤ k ∧
          (k = requests.length → (uploadProgrammer programmerData s).1 ≠ .ok ()) := by
  let s₁ := (setPhase .transferring s).2
  obtain ⟨requests, hserves⟩ := uploadLoop_serves programmerData
    (Nat.lt_succ_self s₁.transport.replies.length)
  have hrun : (uploadProgrammer programmerData s).1
        = (uploadLoop programmerData (s₁.transport.replies.length + 1) s₁).1 ∧
      (uploadProgrammer programmerData s).2.transport
        = (uploadLoop programmerData (s₁.transport.replies.length + 1) s₁).2.transport := by
    show ((uploadLoop programmerData (s₁.transport.replies.length + 1) >>= fun _ => do
        fire .endImageReceived
        setPhase .waitingForProgrammer : Method Unit) s₁).1 = _ ∧
      ((uploadLoop programmerData (s₁.transport.replies.length + 1) >>= fun _ => do
        fire .endImageReceived
        setPhase .waitingForProgrammer : Method Unit) s₁).2.transport = _
    rw [Program.run_bind]
    rcases uploadLoop programmerData (s₁.transport.replies.length + 1) s₁ with ⟨e | ⟨⟩, t⟩ <;>
      exact ⟨rfl, rfl⟩
  have hserves' : Serves programmerData s requests (uploadProgrammer programmerData s) := by
    obtain ⟨hresult, htransport⟩ := hrun
    refine ⟨?_, hserves.asked, hserves.inside, ?_, ?_⟩
    · rw [htransport]
      exact hserves.written
    · rw [hresult]
      exact hserves.accepted
    · rw [hresult]
      exact hserves.refused
  refine ⟨requests, hserves', fun k r hr houtside => ⟨?_, ?_⟩⟩
  · by_contra hlt
    have hk : k < requests.length := Nat.not_le.mp hlt
    have hasked := hserves'.asked k _ (List.getElem?_eq_getElem hk)
    rw [hr] at hasked
    rw [DataRequest.packet_injective (Except.ok.inj hasked)] at houtside
    exact houtside (hserves'.inside _ (List.getElem_mem hk))
  · rintro rfl hok
    obtain ⟨imageId, hend⟩ := hserves'.accepted hok
    rw [hr] at hend
    cases hend

end SaharaProtocol

end MBootCore
