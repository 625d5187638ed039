import MBootCore.Firehose.Protocol
import MBootCore.Support.CallRun

/-!
# Firehose — ProtocolSpec

What the calls of `FirehoseProtocol` and its stream engine do: for a call that
succeeded the I/O calls it made, and for every call the members it can change.
The proofs about the protocol use these and no definition behind them.
-/

namespace MBootCore

/-- The answer in a buffer read from the device. -/
def answerIn (buf : ByteBuffer) : FirehoseResponse := .fromXml (textOfBytes buf)

namespace Link

variable {τ : Type}

section Moves

variable (io : ITransport τ)

/-- An answer was read. -/
def Answered (l l' : Link τ) (resp : FirehoseResponse) : Prop :=
  ∃ buf, Link.read io 1 8192 l = (.ok buf, l') ∧ resp = answerIn buf

/-- A request went out and an answer was read. -/
def Asked (request : ByteBuffer) (l l' : Link τ) (resp : FirehoseResponse) : Prop :=
  ∃ n l₁, Link.write io request l = (.ok n, l₁) ∧ Answered io l₁ l' resp

/-- The transport gave the answer recorded in an exchange. -/
def Answers : Exchange → Prop
  | .wrote data result => ∃ t, (io.write t data).1 = result
  | .received result => ∃ t minBytes maxBytes, (io.read t minBytes maxBytes).1 = result

/-- The calls made so far are followed by more of them, each as the transport
answered it. -/
def Extends (l l' : Link τ) : Prop :=
  ∃ log, l'.exchanges = l.exchanges ++ log ∧ ∀ exchange ∈ log, Answers io exchange

/-- Data went out, at the second try if the first one failed. -/
def Sent (data : ByteBuffer) (l l' : Link τ) : Prop :=
  ∃ n l₁, (l₁ = l ∨ ∃ e, Link.write io data l = (.error e, l₁)) ∧
    Link.write io data l₁ = (.ok n, l')

/-- The data went out chunk by chunk and no chunk was refused. -/
inductive Streamed (chunkSize : Nat) : ByteBuffer → Link τ → Link τ → Prop where
  | done (l : Link τ) : Streamed chunkSize [] l l
  | chunk {rest : ByteBuffer} {l l₁ l₂ l' : Link τ} {resp : FirehoseResponse}
      (remaining : rest ≠ []) (sent : Sent io (rest.take chunkSize) l l₁)
      (answered : Answered io l₁ l₂ resp) (kept : resp.isNak = false)
      (later : Streamed chunkSize (rest.drop chunkSize) l₂ l') : Streamed chunkSize rest l l'

/-- The chunks read until nothing remains, and what they add up to. -/
inductive Collected (chunkSize : Nat) : Nat → ByteBuffer → Link τ → Link τ → ByteBuffer → Prop where
  | done (data : ByteBuffer) (l : Link τ) : Collected chunkSize 0 data l l data
  | chunk {remaining : Nat} {data chunk all : ByteBuffer} {l l₁ l' : Link τ}
      (positive : remaining ≠ 0)
      (read : Link.read io (min remaining chunkSize) (min remaining chunkSize) l = (.ok chunk, l₁))
      (later : Collected chunkSize (sizeSub remaining chunk.length) (data ++ chunk) l₁ l' all) :
      Collected chunkSize remaining data l l' all

end Moves

variable {io : ITransport τ}

theorem Extends.refl (l : Link τ) : Extends io l l := ⟨[], (List.append_nil _).symm, by simp⟩

theorem Extends.trans {l₁ l₂ l₃ : Link τ} (h : Extends io l₁ l₂) (h' : Extends io l₂ l₃) :
    Extends io l₁ l₃ := by
  obtain ⟨log, hlog, hall⟩ := h
  obtain ⟨log', hlog', hall'⟩ := h'
  refine ⟨log ++ log', by rw [hlog', hlog, List.append_assoc], ?_⟩
  intro exchange hmem
  rcases List.mem_append.mp hmem with hmem | hmem
  · exact hall exchange hmem
  · exact hall' exchange hmem

theorem write_extends (data : ByteBuffer) (l : Link τ) :
    Extends io l (Link.write io data l).2 := by
  refine ⟨[.wrote data (io.write l.transport data).1], rfl, ?_⟩
  intro exchange hmem
  rw [List.mem_singleton.mp hmem]
  exact ⟨l.transport, rfl⟩

theorem read_extends (minBytes maxBytes : Nat) (l : Link τ) :
    Extends io l (Link.read io minBytes maxBytes l).2 := by
  refine ⟨[.received (io.read l.transport minBytes maxBytes).1], rfl, ?_⟩
  intro exchange hmem
  rw [List.mem_singleton.mp hmem]
  exact ⟨l.transport, minBytes, maxBytes, rfl⟩

theorem Asked.extends {request : ByteBuffer} {l l' : Link τ} {resp : FirehoseResponse}
    (h : Asked io request l l' resp) : Extends io l l' := by
  obtain ⟨n, l₁, hwrite, buf, hread, -⟩ := h
  have hfirst : Extends io l _ := write_extends request l
  have hsecond : Extends io l₁ _ := read_extends 1 8192 l₁
  rw [hwrite] at hfirst
  rw [hread] at hsecond
  exact hfirst.trans hsecond

end Link

/-! ## The stream engine -/

namespace FirehoseStreamEngine

variable {τ : Type} {io : ITransport τ} {s t : FirehoseStreamEngine τ}

/-- The engine further on. -/
def withLink (s : FirehoseStreamEngine τ) (l : Link τ) : FirehoseStreamEngine τ :=
  { s with link := l }

@[simp] theorem withLink_link (s : FirehoseStreamEngine τ) (l : Link τ) :
    (s.withLink l).link = l := rfl

@[simp] theorem withLink_config (s : FirehoseStreamEngine τ) (l : Link τ) :
    (s.withLink l).config = s.config := rfl

@[simp] theorem withLink_cancelled (s : FirehoseStreamEngine τ) (l : Link τ) :
    (s.withLink l).cancelled = s.cancelled := rfl

@[simp] theorem withLink_withLink (s : FirehoseStreamEngine τ) (l l' : Link τ) :
    (s.withLink l).withLink l' = s.withLink l' := rfl

theorem checkCancelled_ok (h : checkCancelled s = (.ok (), t)) : s.cancelled = false ∧ s = t :=
  Program.failIf_eq_ok.mp h

theorem checkCancelled_passes (h : s.cancelled = false) : checkCancelled s = (.ok (), s) :=
  Program.failIf_eq_ok.mpr ⟨h, rfl⟩

theorem checkCancelled_fails (h : s.cancelled = true) :
    checkCancelled s = (.error .cancelled, s) := by
  rw [checkCancelled, Program.run_failIf, if_pos h]

theorem onLink_ok {α : Type} {p : Program (Link τ) ErrorCode α} {a : α}
    (h : onLink p s = (.ok a, t)) : ∃ l, p s.link = (.ok a, l) ∧ t = s.withLink l :=
  Program.zoom_eq_ok.mp h

theorem sendCommand_ok {cmd : FirehoseCommand} (h : sendCommand io cmd s = (.ok (), t)) :
    ∃ n l, Link.write io (wireText cmd.serialize) s.link = (.ok n, l) ∧ t = s.withLink l := by
  obtain ⟨⟨⟩, s₁, hcheck, h⟩ := Program.bind_eq_ok.mp h
  obtain ⟨-, rfl⟩ := checkCancelled_ok hcheck
  obtain ⟨xml, s₂, hxml, h⟩ := Program.bind_eq_ok.mp h
  obtain ⟨hserialize, rfl⟩ := Prod.mk.inj hxml
  obtain ⟨n, s₃, hwrite, hdone⟩ := Program.bind_eq_ok.mp h
  obtain ⟨l, hlink, rfl⟩ := onLink_ok hwrite
  obtain ⟨-, rfl⟩ := Prod.mk.inj hdone
  have htext : cmd.serialize = xml := by rw [FirehoseCommand.serialize, hserialize]
  exact ⟨n, l, by rw [htext]; exact hlink, rfl⟩

theorem receiveResponse_ok {resp : FirehoseResponse} (h : receiveResponse io s = (.ok resp, t)) :
    ∃ l, Link.Answered io s.link l resp ∧ t = s.withLink l := by
  obtain ⟨⟨⟩, s₁, hcheck, h⟩ := Program.bind_eq_ok.mp h
  obtain ⟨-, rfl⟩ := checkCancelled_ok hcheck
  obtain ⟨buf, s₂, hread, hdone⟩ := Program.bind_eq_ok.mp h
  obtain ⟨l, hlink, rfl⟩ := onLink_ok hread
  obtain ⟨hresp, rfl⟩ := Prod.mk.inj hdone
  exact ⟨l, ⟨buf, hlink, (Except.ok.inj hresp).symm⟩, rfl⟩

theorem sendChunk_ok {chunk : ByteBuffer} (h : sendChunk io chunk s = (.ok (), t)) :
    ∃ n l, Link.write io chunk s.link = (.ok n, l) ∧ t = s.withLink l := by
  obtain ⟨⟨⟩, s₁, hcheck, h⟩ := Program.bind_eq_ok.mp h
  obtain ⟨-, rfl⟩ := checkCancelled_ok hcheck
  obtain ⟨n, s₂, hwrite, hdone⟩ := Program.bind_eq_ok.mp h
  obtain ⟨l, hlink, rfl⟩ := onLink_ok hwrite
  obtain ⟨-, rfl⟩ := Prod.mk.inj hdone
  exact ⟨n, l, hlink, rfl⟩

theorem sendChunk_error {chunk : ByteBuffer} {e : ErrorCode} (hcancelled : s.cancelled = false)
    (h : sendChunk io chunk s = (.error e, t)) :
    ∃ l, Link.write io chunk s.link = (.error e, l) ∧ t = s.withLink l := by
  rw [sendChunk, Program.run_bind_ok (checkCancelled_passes hcancelled), Program.run_bind] at h
  rcases hwrite : onLink (Link.write io chunk) s with ⟨e' | n, s₁⟩
  · rw [hwrite] at h
    obtain ⟨hcode, rfl⟩ := Prod.mk.inj h
    obtain rfl := Except.error.inj hcode
    obtain ⟨hr, rfl⟩ := Prod.mk.inj hwrite
    exact ⟨_, Prod.ext hr rfl, rfl⟩
  · rw [hwrite] at h
    cases h

theorem receiveChunk_ok {size : Nat} {chunk : ByteBuffer}
    (h : receiveChunk io size s = (.ok chunk, t)) :
    ∃ l, Link.read io size size s.link = (.ok chunk, l) ∧ t = s.withLink l := by
  obtain ⟨⟨⟩, s₁, hcheck, h⟩ := Program.bind_eq_ok.mp h
  obtain ⟨-, rfl⟩ := checkCancelled_ok hcheck
  exact onLink_ok h

theorem sendChunkRetrying_ok {chunk : ByteBuffer} (h : sendChunkRetrying io chunk s = (.ok (), t))
    (hcancelled : s.cancelled = false) :
    ∃ l, Link.Sent io chunk s.link l ∧ t = s.withLink l := by
  rw [sendChunkRetrying, Program.run_bind_ok (Program.run_attempt _ s)] at h
  rcases hfirst : sendChunk io chunk s with ⟨e | ⟨⟩, s₁⟩
  · simp only [hfirst] at h
    obtain ⟨l₁, hwrite₁, rfl⟩ := sendChunk_error hcancelled hfirst
    rw [Program.run_bind_ok (Program.run_gets _ _)] at h
    by_cases hretries : s.config.maxRetries > 0
    · rw [withLink_config, if_pos hretries] at h
      obtain ⟨n, l, hwrite, rfl⟩ := sendChunk_ok h
      exact ⟨l, ⟨n, l₁, .inr ⟨e, hwrite₁⟩, hwrite⟩, rfl⟩
    · rw [withLink_config, if_neg hretries] at h
      cases h
  · simp only [hfirst] at h
    obtain ⟨n, l, hwrite, rfl⟩ := sendChunk_ok hfirst
    obtain ⟨-, rfl⟩ := Prod.mk.inj h
    exact ⟨l, ⟨n, s.link, .inl rfl, hwrite⟩, rfl⟩

theorem sendRound_ok {chunk : ByteBuffer} (h : sendRound io chunk s = (.ok (), t))
    (hcancelled : s.cancelled = false) :
    ∃ l₁ l₂ resp, Link.Sent io chunk s.link l₁ ∧ Link.Answered io l₁ l₂ resp ∧
      resp.isNak = false ∧ t = s.withLink l₂ := by
  obtain ⟨⟨⟩, s₁, hsend, h⟩ := Program.bind_eq_ok.mp h
  obtain ⟨l₁, hsent, rfl⟩ := sendChunkRetrying_ok hsend hcancelled
  obtain ⟨resp, s₂, hreceive, h⟩ := Program.bind_eq_ok.mp h
  obtain ⟨l₂, hanswered, rfl⟩ := receiveResponse_ok hreceive
  cases hnak : resp.isNak with
  | true =>
    rw [if_pos hnak] at h
    cases h
  | false =>
    rw [if_neg (by simp [hnak])] at h
    obtain ⟨-, rfl⟩ := Prod.mk.inj h
    exact ⟨l₁, l₂, resp, hsent, hanswered, hnak, rfl⟩

/-- A loop that returned, uncancelled, has streamed the rest of the data. -/
theorem sendLoop_ok {fuel : Nat} {rest : ByteBuffer} (h : sendLoop io fuel rest s = (.ok (), t))
    (hcancelled : s.cancelled = false) :
    ∃ l, Link.Streamed io s.config.chunkSizeToTarget rest s.link l ∧ t = s.withLink l := by
  induction fuel generalizing rest s with
  | zero => cases h
  | succ fuel ih =>
    rw [sendLoop, Program.run_bind_ok (Program.run_gets _ s)] at h
    by_cases hrest : rest = []
    · rw [if_pos (.inl hrest)] at h
      obtain ⟨-, rfl⟩ := Prod.mk.inj h
      exact ⟨s.link, hrest ▸ .done s.link, rfl⟩
    · rw [if_neg (by simp [hrest, hcancelled]), Program.run_bind_ok (Program.run_gets _ s)] at h
      obtain ⟨⟨⟩, s₁, hround, h⟩ := Program.bind_eq_ok.mp h
      obtain ⟨l₁, l₂, resp, hsent, hanswered, hkept, rfl⟩ := sendRound_ok hround hcancelled
      obtain ⟨l, hlater, rfl⟩ := ih h hcancelled
      have htake : rest.take (min rest.length s.config.chunkSizeToTarget)
          = rest.take s.config.chunkSizeToTarget := by
        rw [List.take_eq_take_iff]
        omega
      have hdrop : rest.drop (min rest.length s.config.chunkSizeToTarget)
          = rest.drop s.config.chunkSizeToTarget := by
        rcases Nat.le_total rest.length s.config.chunkSizeToTarget with hle | hle
        · rw [Nat.min_eq_left hle, List.drop_length, List.drop_eq_nil_of_le hle]
        · rw [Nat.min_eq_right hle]
      rw [htake] at hsent
      rw [hdrop] at hlater
      exact ⟨l, .chunk hrest hsent hanswered hkept hlater, rfl⟩

theorem streamToDevice_ok {fuel : Nat} {cmd : FirehoseCommand} {data : ByteBuffer}
    (h : streamToDevice io fuel cmd data s = (.ok (), t)) :
    s.cancelled = false ∧ ∃ n l₁ l, Link.write io (wireText cmd.serialize) s.link = (.ok n, l₁) ∧
      Link.Streamed io s.config.chunkSizeToTarget data l₁ l ∧ t = s.withLink l := by
  obtain ⟨⟨⟩, s₁, hcheck, h⟩ := Program.bind_eq_ok.mp h
  obtain ⟨hcancelled, rfl⟩ := checkCancelled_ok hcheck
  obtain ⟨⟨⟩, s₂, hsend, h⟩ := Program.bind_eq_ok.mp h
  obtain ⟨n, l₁, hwrite, rfl⟩ := sendCommand_ok hsend
  obtain ⟨⟨⟩, s₃, hloop, h⟩ := Program.bind_eq_ok.mp h
  obtain ⟨l, hstreamed, rfl⟩ := sendLoop_ok hloop hcancelled
  obtain ⟨-, rfl⟩ := checkCancelled_ok h
  exact ⟨hcancelled, n, l₁, l, hwrite, hstreamed, rfl⟩

theorem receiveLoop_ok {fuel remaining : Nat} {data all : ByteBuffer}
    (h : receiveLoop io fuel remaining data s = (.ok all, t)) (hcancelled : s.cancelled = false) :
    ∃ l, Link.Collected io s.config.chunkSizeFromTarget remaining data s.link l all ∧
      t = s.withLink l := by
  induction fuel generalizing remaining data s with
  | zero => cases h
  | succ fuel ih =>
    rw [receiveLoop, Program.run_bind_ok (Program.run_gets _ s)] at h
    by_cases hremaining : remaining = 0
    · rw [if_pos (.inl hremaining)] at h
      obtain ⟨hall, rfl⟩ := Prod.mk.inj h
      obtain rfl := Except.ok.inj hall
      exact ⟨s.link, hremaining ▸ .done data s.link, rfl⟩
    · rw [if_neg (by simp [hremaining, hcancelled]),
        Program.run_bind_ok (Program.run_gets _ s)] at h
      obtain ⟨chunk, s₁, hreceive, h⟩ := Program.bind_eq_ok.mp h
      obtain ⟨l₁, hread, rfl⟩ := receiveChunk_ok hreceive
      obtain ⟨l, hlater, rfl⟩ := ih h hcancelled
      exact ⟨l, .chunk hremaining hread hlater, rfl⟩

theorem streamFromDevice_ok {fuel : Nat} {cmd : FirehoseCommand} {totalBytes : Nat}
    {all : ByteBuffer} (h : streamFromDevice io fuel cmd totalBytes s = (.ok all, t)) :
    s.cancelled = false ∧ ∃ resp l₁ l, Link.Asked io (wireText cmd.serialize) s.link l₁ resp ∧
      resp.isNak = false ∧
      Link.Collected io s.config.chunkSizeFromTarget totalBytes [] l₁ l all ∧ t = s.withLink l := by
  obtain ⟨⟨⟩, s₁, hcheck, h⟩ := Program.bind_eq_ok.mp h
  obtain ⟨hcancelled, rfl⟩ := checkCancelled_ok hcheck
  obtain ⟨⟨⟩, s₂, hsend, h⟩ := Program.bind_eq_ok.mp h
  obtain ⟨n, l₁, hwrite, rfl⟩ := sendCommand_ok hsend
  obtain ⟨resp, s₃, hreceive, h⟩ := Program.bind_eq_ok.mp h
  obtain ⟨l₂, hanswered, rfl⟩ := receiveResponse_ok hreceive
  cases hnak : resp.isNak with
  | true =>
    rw [if_pos hnak] at h
    cases h
  | false =>
    rw [if_neg (by simp [hnak])] at h
    obtain ⟨data, s₄, hloop, h⟩ := Program.bind_eq_ok.mp h
    obtain ⟨l, hcollected, rfl⟩ := receiveLoop_ok hloop hcancelled
    obtain ⟨⟨⟩, s₅, hcheck', hdone⟩ := Program.bind_eq_ok.mp h
    obtain ⟨-, rfl⟩ := checkCancelled_ok hcheck'
    obtain ⟨hall, rfl⟩ := Prod.mk.inj hdone
    obtain rfl := Except.ok.inj hall
    exact ⟨hcancelled, resp, l₂, l, ⟨n, l₁, hwrite, hanswered⟩, hnak, hcollected, rfl⟩

/-! ### Whatever comes of it -/

/-- The I/O calls are only ever added to, and nothing else changes. -/
def LinkExtends (io : ITransport τ) (s t : FirehoseStreamEngine τ) : Prop :=
  ∃ l, Link.Extends io s.link l ∧ t = s.withLink l

theorem LinkExtends.refl (s : FirehoseStreamEngine τ) : LinkExtends io s s := ⟨s.link, .refl _, rfl⟩

theorem LinkExtends.trans ⦃r s t : FirehoseStreamEngine τ⦄ (h : LinkExtends io r s)
    (h' : LinkExtends io s t) : LinkExtends io r t := by
  obtain ⟨l, hl, rfl⟩ := h
  obtain ⟨l', hl', rfl⟩ := h'
  exact ⟨l', hl.trans hl', rfl⟩

theorem checkCancelled_steps : Program.Steps (LinkExtends io) (checkCancelled (τ := τ)) :=
  Program.Steps.failIf LinkExtends.refl _ _

theorem write_steps (data : ByteBuffer) :
    Program.Steps (LinkExtends io) (onLink (Link.write io data)) :=
  fun s => ⟨_, Link.write_extends data s.link, rfl⟩

theorem read_steps (minBytes maxBytes : Nat) :
    Program.Steps (LinkExtends io) (onLink (Link.read io minBytes maxBytes)) :=
  fun s => ⟨_, Link.read_extends minBytes maxBytes s.link, rfl⟩

theorem receiveResponse_steps : Program.Steps (LinkExtends io) (receiveResponse io) := by
  refine Program.Steps.bind LinkExtends.trans checkCancelled_steps fun _ => ?_
  refine Program.Steps.bind LinkExtends.trans (read_steps 1 8192) fun buf => ?_
  exact Program.Steps.pure LinkExtends.refl _

theorem sendChunk_steps (chunk : ByteBuffer) :
    Program.Steps (LinkExtends io) (sendChunk io chunk) := by
  refine Program.Steps.bind LinkExtends.trans checkCancelled_steps fun _ => ?_
  refine Program.Steps.bind LinkExtends.trans (write_steps chunk) fun n => ?_
  exact Program.Steps.pure LinkExtends.refl _

theorem receiveChunk_steps (size : Nat) : Program.Steps (LinkExtends io) (receiveChunk io size) :=
  Program.Steps.bind LinkExtends.trans checkCancelled_steps fun _ => read_steps size size

theorem sendRound_steps (chunk : ByteBuffer) :
    Program.Steps (LinkExtends io) (sendRound io chunk) := by
  refine Program.Steps.bind LinkExtends.trans ?_ fun _ => ?_
  · refine Program.Steps.bind LinkExtends.trans (sendChunk_steps chunk).attempt fun result => ?_
    cases result with
    | ok v => exact Program.Steps.pure LinkExtends.refl _
    | error e =>
      refine Program.Steps.bind LinkExtends.trans (Program.Steps.gets LinkExtends.refl _)
        fun maxRetries => ?_
      by_cases hretries : maxRetries > 0
      · simp only [if_pos hretries]
        exact sendChunk_steps chunk
      · simp only [if_neg hretries]
        exact Program.Steps.fail LinkExtends.refl _
  · refine Program.Steps.bind LinkExtends.trans receiveResponse_steps fun resp => ?_
    by_cases hnak : resp.isNak
    · simp only [if_pos hnak]
      exact Program.Steps.fail LinkExtends.refl _
    · simp only [if_neg hnak]
      exact Program.Steps.pure LinkExtends.refl _

theorem sendLoop_steps (fuel : Nat) (rest : ByteBuffer) :
    Program.Steps (LinkExtends io) (sendLoop io fuel rest) := by
  induction fuel generalizing rest with
  | zero => exact Program.Steps.fail LinkExtends.refl _
  | succ fuel ih =>
    refine Program.Steps.bind LinkExtends.trans (Program.Steps.gets LinkExtends.refl _)
      fun isCancelled => ?_
    by_cases hdone : rest = [] ∨ isCancelled = true
    · simp only [if_pos hdone]
      exact Program.Steps.pure LinkExtends.refl _
    · simp only [if_neg hdone]
      refine Program.Steps.bind LinkExtends.trans (Program.Steps.gets LinkExtends.refl _)
        fun chunkSize => ?_
      exact Program.Steps.bind LinkExtends.trans (sendRound_steps _) fun _ => ih _

theorem receiveLoop_steps (fuel remaining : Nat) (data : ByteBuffer) :
    Program.Steps (LinkExtends io) (receiveLoop io fuel remaining data) := by
  induction fuel generalizing remaining data with
  | zero => exact Program.Steps.fail LinkExtends.refl _
  | succ fuel ih =>
    refine Program.Steps.bind LinkExtends.trans (Program.Steps.gets LinkExtends.refl _)
      fun isCancelled => ?_
    by_cases hdone : remaining = 0 ∨ isCancelled = true
    · simp only [if_pos hdone]
      exact Program.Steps.pure LinkExtends.refl _
    · simp only [if_neg hdone]
      refine Program.Steps.bind LinkExtends.trans (Program.Steps.gets LinkExtends.refl _)
        fun chunkSize => ?_
      exact Program.Steps.bind LinkExtends.trans (receiveChunk_steps _) fun chunk => ih _ _

/-- An engine that is not cancelled hands the command to the transport first. -/
theorem sendCommand_run (cmd : FirehoseCommand) (h : s.cancelled = false) :
    (sendCommand io cmd s).2 = s.withLink (Link.write io (wireText cmd.serialize) s.link).2 := by
  rw [sendCommand, Program.run_bind_ok (checkCancelled_passes h),
    Program.run_bind_ok (show Program.ofExcept (FirehoseXmlEngine.serialize cmd.toXml) s
      = (.ok cmd.serialize, s) from rfl), Program.run_bind]
  rcases hwrite : onLink (Link.write io (wireText cmd.serialize)) s with ⟨e | n, s₁⟩
  · exact (congrArg Prod.snd hwrite).symm
  · exact (congrArg Prod.snd hwrite).symm

/-- What follows the check for cancellation in both streaming methods. -/
theorem run_afterCommand {α : Type} (cmd : FirehoseCommand) {k : Unit → Method τ α}
    (hk : ∀ u, Program.Steps (LinkExtends io) (k u)) (h : s.cancelled = false) :
    ∃ r log, ((checkCancelled >>= fun _ => sendCommand io cmd >>= k) s).2.link.exchanges
      = s.link.exchanges ++ .wrote (wireText cmd.serialize) r :: log := by
  have hsend : (sendCommand io cmd s).2 = _ := sendCommand_run cmd h
  rw [Program.run_bind_ok (checkCancelled_passes h), Program.run_bind]
  refine ⟨(Link.write io (wireText cmd.serialize) s.link).1, ?_⟩
  rcases hrun : sendCommand io cmd s with ⟨e | ⟨⟩, s₁⟩
  · rw [hrun] at hsend
    exact ⟨[], congrArg (fun t => t.link.exchanges) hsend⟩
  · rw [hrun] at hsend
    obtain rfl : s₁ = _ := hsend
    obtain ⟨l, ⟨log, hlog, -⟩, hstate⟩ := hk () (s.withLink (Link.write io _ s.link).2)
    refine ⟨log, ?_⟩
    show ((k () _).2).link.exchanges = _
    rw [hstate, withLink_link, hlog]
    exact List.append_assoc _ _ _

theorem sendCommand_steps (cmd : FirehoseCommand) :
    Program.Steps (LinkExtends io) (sendCommand io cmd) := by
  refine Program.Steps.bind LinkExtends.trans checkCancelled_steps fun _ => ?_
  refine Program.Steps.bind LinkExtends.trans (Program.Steps.ofExcept LinkExtends.refl _)
    fun xml => ?_
  exact Program.Steps.bind LinkExtends.trans (write_steps _) fun n =>
    Program.Steps.pure LinkExtends.refl _

theorem afterSend_steps (fuel : Nat) (data : ByteBuffer) :
    Program.Steps (LinkExtends io) (sendLoop io fuel data >>= fun _ => checkCancelled) :=
  Program.Steps.bind LinkExtends.trans (sendLoop_steps fuel data) fun _ => checkCancelled_steps

theorem afterReceive_steps (fuel totalBytes : Nat) :
    Program.Steps (LinkExtends io) (receiveResponse io >>= fun resp =>
      if resp.isNak then Program.fail .protocolError
      else receiveLoop io fuel totalBytes [] >>= fun allData =>
        checkCancelled >>= fun _ => pure allData) := by
  refine Program.Steps.bind LinkExtends.trans receiveResponse_steps fun resp => ?_
  by_cases hnak : resp.isNak
  · simp only [if_pos hnak]
    exact Program.Steps.fail LinkExtends.refl _
  · simp only [if_neg hnak]
    refine Program.Steps.bind LinkExtends.trans
      (receiveLoop_steps fuel totalBytes []) fun data => ?_
    exact Program.Steps.bind LinkExtends.trans checkCancelled_steps fun _ =>
      Program.Steps.pure LinkExtends.refl _

theorem streamToDevice_steps (fuel : Nat) (cmd : FirehoseCommand) (data : ByteBuffer) :
    Program.Steps (LinkExtends io) (streamToDevice io fuel cmd data) :=
  Program.Steps.bind LinkExtends.trans checkCancelled_steps fun _ =>
    Program.Steps.bind LinkExtends.trans (sendCommand_steps cmd) fun _ => afterSend_steps fuel data

theorem streamFromDevice_steps (fuel : Nat) (cmd : FirehoseCommand) (totalBytes : Nat) :
    Program.Steps (LinkExtends io) (streamFromDevice io fuel cmd totalBytes) :=
  Program.Steps.bind LinkExtends.trans checkCancelled_steps fun _ =>
    Program.Steps.bind LinkExtends.trans (sendCommand_steps cmd) fun _ =>
      afterReceive_steps fuel totalBytes

/-- Once it is past its first check, streaming writes to the transport. -/
theorem streamToDevice_writes (fuel : Nat) (cmd : FirehoseCommand) (data : ByteBuffer)
    (h : s.cancelled = false) :
    ∃ r log, (streamToDevice io fuel cmd data s).2.link.exchanges
      = s.link.exchanges ++ .wrote (wireText cmd.serialize) r :: log := by
  unfold streamToDevice
  exact run_afterCommand cmd (fun _ => afterSend_steps fuel data) h

theorem streamFromDevice_writes (fuel : Nat) (cmd : FirehoseCommand) (totalBytes : Nat)
    (h : s.cancelled = false) :
    ∃ r log, (streamFromDevice io fuel cmd totalBytes s).2.link.exchanges
      = s.link.exchanges ++ .wrote (wireText cmd.serialize) r :: log := by
  unfold streamFromDevice
  exact run_afterCommand cmd (fun _ => afterReceive_steps fuel totalBytes) h

/-- A cancelled engine does nothing. -/
theorem streamToDevice_cancelled (fuel : Nat) (cmd : FirehoseCommand) (data : ByteBuffer)
    (h : s.cancelled = true) : streamToDevice io fuel cmd data s = (.error .cancelled, s) := by
  exact Program.run_bind_error (checkCancelled_fails h)

theorem streamFromDevice_cancelled (fuel : Nat) (cmd : FirehoseCommand) (totalBytes : Nat)
    (h : s.cancelled = true) :
    streamFromDevice io fuel cmd totalBytes s = (.error .cancelled, s) := by
  exact Program.run_bind_error (checkCancelled_fails h)

end FirehoseStreamEngine

/-! ## The protocol -/

namespace FirehoseProtocol

variable {τ : Type} {io : ITransport τ} {s t : FirehoseProtocol τ}

/-- The protocol further on. -/
def withLink (s : FirehoseProtocol τ) (l : Link τ) : FirehoseProtocol τ := { s with link := l }

/-- The I/O calls are only ever added to. -/
def LinkExtends (io : ITransport τ) (s t : FirehoseProtocol τ) : Prop :=
  ∃ l, Link.Extends io s.link l ∧ t = s.withLink l

theorem LinkExtends.refl (s : FirehoseProtocol τ) : LinkExtends io s s :=
  ⟨s.link, .refl _, rfl⟩

theorem LinkExtends.trans ⦃r s t : FirehoseProtocol τ⦄ (h : LinkExtends io r s)
    (h' : LinkExtends io s t) : LinkExtends io r t := by
  obtain ⟨l, hl, rfl⟩ := h
  obtain ⟨l', hl', rfl⟩ := h'
  exact ⟨l', hl.trans hl', rfl⟩

theorem checkCancelled_ok (h : checkCancelled s = (.ok (), t)) : s.cancelled = false ∧ s = t :=
  Program.failIf_eq_ok.mp h

theorem checkCancelled_passes (h : s.cancelled = false) : checkCancelled s = (.ok (), s) :=
  Program.failIf_eq_ok.mpr ⟨h, rfl⟩

theorem checkCancelled_fails (h : s.cancelled = true) :
    checkCancelled s = (.error .cancelled, s) := by
  rw [checkCancelled, Program.run_failIf, if_pos h]

theorem onLink_ok {α : Type} {p : Program (Link τ) ErrorCode α} {a : α}
    (h : onLink p s = (.ok a, t)) : ∃ l, p s.link = (.ok a, l) ∧ t = s.withLink l :=
  Program.zoom_eq_ok.mp h

/-! ### Commands -/

theorem receiveResponse_ok {resp : FirehoseResponse} (h : receiveResponse io s = (.ok resp, t)) :
    s.cancelled = false ∧ ∃ l, Link.Answered io s.link l resp ∧ t = s.withLink l := by
  obtain ⟨⟨⟩, s₁, hcheck, h⟩ := Program.bind_eq_ok.mp h
  obtain ⟨hcancelled, rfl⟩ := checkCancelled_ok hcheck
  obtain ⟨buf, s₂, hread, hdone⟩ := Program.bind_eq_ok.mp h
  obtain ⟨l, hlink, rfl⟩ := onLink_ok hread
  obtain ⟨hresp, rfl⟩ := Prod.mk.inj hdone
  exact ⟨hcancelled, l, ⟨buf, hlink, (Except.ok.inj hresp).symm⟩, rfl⟩

theorem receiveResponse_steps : Program.Steps (LinkExtends io) (receiveResponse io) := by
  refine Program.Steps.bind LinkExtends.trans ?_ fun _ => ?_
  · exact Program.Steps.failIf LinkExtends.refl _ _
  · refine Program.Steps.bind LinkExtends.trans (fun s => ?_) fun buf => ?_
    · exact ⟨_, Link.read_extends 1 8192 s.link, rfl⟩
    · exact Program.Steps.pure LinkExtends.refl _

theorem sendCommand_ok {cmd : FirehoseCommand} {resp : FirehoseResponse}
    (h : sendCommand io cmd s = (.ok resp, t)) :
    s.cancelled = false ∧
      ∃ l, Link.Asked io (wireText cmd.serialize) s.link l resp ∧ t = s.withLink l := by
  obtain ⟨⟨⟩, s₁, hcheck, h⟩ := Program.bind_eq_ok.mp h
  obtain ⟨hcancelled, rfl⟩ := checkCancelled_ok hcheck
  obtain ⟨n, s₂, hwrite, h⟩ := Program.bind_eq_ok.mp h
  obtain ⟨l₁, hlink, rfl⟩ := onLink_ok hwrite
  obtain ⟨-, l, hanswered, rfl⟩ := receiveResponse_ok h
  exact ⟨hcancelled, l, ⟨n, l₁, hlink, hanswered⟩, rfl⟩

/-- Whatever comes of a command, it changes the link only. -/
theorem sendCommand_steps (cmd : FirehoseCommand) :
    Program.Steps (LinkExtends io) (sendCommand io cmd) := by
  refine Program.Steps.bind LinkExtends.trans ?_ fun _ => ?_
  · exact Program.Steps.failIf LinkExtends.refl _ _
  · refine Program.Steps.bind LinkExtends.trans (fun s => ?_) fun n => receiveResponse_steps
    exact ⟨_, Link.write_extends _ s.link, rfl⟩

theorem sendCommand_cancelled (cmd : FirehoseCommand) (h : s.cancelled = true) :
    sendCommand io cmd s = (.error .cancelled, s) := by
  exact Program.run_bind_error (checkCancelled_fails h)

theorem sendCommandUnlessNak_ok {cmd : FirehoseCommand} {resp : FirehoseResponse}
    (h : sendCommandUnlessNak io cmd s = (.ok resp, t)) :
    s.cancelled = false ∧ resp.isNak = false ∧
      ∃ l, Link.Asked io (wireText cmd.serialize) s.link l resp ∧ t = s.withLink l := by
  obtain ⟨resp', s₁, hsend, h⟩ := Program.bind_eq_ok.mp h
  obtain ⟨hcancelled, l, hasked, rfl⟩ := sendCommand_ok hsend
  cases hnak : resp'.isNak with
  | true =>
    rw [if_pos hnak] at h
    cases h
  | false =>
    rw [if_neg (by simp [hnak])] at h
    obtain ⟨hresp, rfl⟩ := Prod.mk.inj h
    obtain rfl := Except.ok.inj hresp
    exact ⟨hcancelled, hnak, l, hasked, rfl⟩

/-- The link a command leaves behind: untouched, after the request, or after
the request and the answer. -/
def LeftBy (io : ITransport τ) (cmd : FirehoseCommand) (l l' : Link τ) : Prop :=
  l' = l ∨ l' = (Link.write io (wireText cmd.serialize) l).2 ∨
    ∃ n l₁, Link.write io (wireText cmd.serialize) l = (.ok n, l₁) ∧
      l' = (Link.read io 1 8192 l₁).2

theorem sendCommand_leftBy (cmd : FirehoseCommand) (s : FirehoseProtocol τ) :
    LeftBy io cmd s.link (sendCommand io cmd s).2.link := by
  cases hcancelled : s.cancelled with
  | true =>
    rw [sendCommand_cancelled cmd hcancelled]
    exact .inl rfl
  | false =>
    rw [sendCommand, sendXmlCommand, Program.run_bind_ok (checkCancelled_passes hcancelled),
      Program.run_bind]
    rcases hwrite : onLink (Link.write io (wireText cmd.serialize)) s with ⟨e | n, s₁⟩
    · exact .inr (.inl (congrArg (fun r => link r.2) hwrite).symm)
    · obtain ⟨l₁, hlink, rfl⟩ := onLink_ok hwrite
      refine .inr (.inr ⟨n, l₁, hlink, ?_⟩)
      have hlive : (s.withLink l₁).cancelled = false := hcancelled
      show (receiveResponse io (s.withLink l₁)).2.link = _
      rw [receiveResponse, Program.run_bind_ok (checkCancelled_passes hlive), Program.run_bind]
      rcases hread : onLink (Link.read io 1 8192) (s.withLink l₁) with ⟨e | buf, s₂⟩
      · exact (congrArg (fun r => link r.2) hread).symm
      · exact (congrArg (fun r => link r.2) hread).symm

theorem sendCommandUnlessNak_leftBy (cmd : FirehoseCommand) (s : FirehoseProtocol τ) :
    LeftBy io cmd s.link (sendCommandUnlessNak io cmd s).2.link := by
  have hleft : LeftBy io cmd s.link (sendCommand io cmd s).2.link := sendCommand_leftBy cmd s
  rw [sendCommandUnlessNak, Program.run_bind]
  rcases hsend : sendCommand io cmd s with ⟨e | resp, s₁⟩
  · rwa [hsend] at hleft
  · rw [hsend] at hleft
    by_cases hnak : resp.isNak = true
    · simp only [if_pos hnak]
      exact hleft
    · simp only [if_neg hnak]
      exact hleft

theorem sendCommandUnlessNak_steps (cmd : FirehoseCommand) :
    Program.Steps (LinkExtends io) (sendCommandUnlessNak io cmd) := by
  refine Program.Steps.bind LinkExtends.trans (sendCommand_steps cmd) fun resp => ?_
  by_cases hnak : resp.isNak
  · simp only [if_pos hnak]
    exact Program.Steps.fail LinkExtends.refl _
  · simp only [if_neg hnak]
    exact Program.Steps.pure LinkExtends.refl _

/-! ### Configure -/

theorem configureExchange_ok {cmd : ConfigureCommand} {resp : FirehoseResponse}
    (h : configureExchange io cmd s = (.ok resp, t)) :
    ∃ l, Link.Asked io (wireText (FirehoseCommand.configure cmd).serialize) s.link l resp ∧
      t = s.withLink l := by
  obtain ⟨xml, s₁, hxml, h⟩ := Program.bind_eq_ok.mp h
  obtain ⟨hserialize, rfl⟩ := Prod.mk.inj hxml
  obtain ⟨n, s₂, hwrite, h⟩ := Program.bind_eq_ok.mp h
  obtain ⟨l₁, hlink, rfl⟩ := onLink_ok hwrite
  obtain ⟨-, l, hanswered, rfl⟩ := receiveResponse_ok h
  have htext : (FirehoseCommand.configure cmd).serialize = xml := by
    rw [FirehoseCommand.serialize, FirehoseCommand.toXml, hserialize]
  exact ⟨l, ⟨n, l₁, by rw [htext]; exact hlink, hanswered⟩, rfl⟩

theorem configureExchange_steps (cmd : ConfigureCommand) :
    Program.Steps (LinkExtends io) (configureExchange io cmd) := by
  refine Program.Steps.bind LinkExtends.trans ?_ fun xml => ?_
  · exact Program.Steps.ofExcept LinkExtends.refl _
  · refine Program.Steps.bind LinkExtends.trans (fun s => ?_) fun n => receiveResponse_steps
    exact ⟨_, Link.write_extends _ s.link, rfl⟩

/-- The protocol after some attempts to configure it. -/
def withAttempts (s : FirehoseProtocol τ) (l : Link τ) (errors : List ErrorCode) :
    FirehoseProtocol τ :=
  { s with link := l, errors := errors }

/-- The protocol once an attempt was acknowledged. -/
def afterConfigure (s : FirehoseProtocol τ) : FirehoseProtocol τ :=
  { s with
    configured := true
    phase := .firehoseReady
    stateMachine := (s.stateMachine.transition 1).2 }

/-- One attempt either ends the loop or leaves it with one attempt less. -/
theorem configureLoop_attempt (cmd : ConfigureCommand) (attempts : Nat)
    (hcancelled : s.cancelled = false) :
    (∃ l resp, Link.Asked io (wireText (FirehoseCommand.configure cmd).serialize) s.link l resp ∧
        resp.isAck = true ∧
        configureLoop io cmd (attempts + 1) s = (.ok (), (s.withLink l).afterConfigure)) ∨
      ∃ l errors, Link.Extends io s.link l ∧ configureLoop io cmd (attempts + 1) s
        = configureLoop io cmd attempts (s.withAttempts l errors) := by
  rw [configureLoop, Program.run_bind_ok (checkCancelled_passes hcancelled),
    Program.run_bind_ok (Program.run_attempt _ s)]
  obtain ⟨l, hl, hstate⟩ := configureExchange_steps cmd s
  rcases hexchange : configureExchange io cmd s with ⟨e | resp, s₁⟩
  · rw [hexchange] at hstate
    obtain rfl : s₁ = s.withLink l := hstate
    exact .inr ⟨l, s.errors ++ [e], hl, rfl⟩
  · obtain ⟨l', hasked, rfl⟩ := configureExchange_ok hexchange
    rw [hexchange] at hstate
    obtain rfl : l' = l := congrArg link hstate
    by_cases hack : resp.isAck = true
    · refine .inl ⟨l', resp, hasked, hack, ?_⟩
      simp only [if_pos hack]
      rfl
    · by_cases hnak : resp.isNak = true
      · refine .inr ⟨l', s.errors ++ [.protocolError], hl, ?_⟩
        simp only [if_neg hack, if_pos hnak]
        rfl
      · refine .inr ⟨l', s.errors, hl, ?_⟩
        simp only [if_neg hack, if_neg hnak]
        rfl

theorem configureLoop_cancelled (cmd : ConfigureCommand) (attempts : Nat)
    (h : s.cancelled = true) :
    configureLoop io cmd (attempts + 1) s = (.error .cancelled, s) := by
  exact Program.run_bind_error (checkCancelled_fails h)

/-- The loop returns when an attempt was acknowledged. -/
theorem configureLoop_ok {cmd : ConfigureCommand} {attempts : Nat}
    (h : configureLoop io cmd attempts s = (.ok (), t)) :
    s.cancelled = false ∧ 0 < attempts ∧ ∃ l₁ l resp errors, Link.Extends io s.link l₁ ∧
      Link.Asked io (wireText (FirehoseCommand.configure cmd).serialize) l₁ l resp ∧
      resp.isAck = true ∧ t = (s.withAttempts l errors).afterConfigure := by
  induction attempts generalizing s with
  | zero => cases h
  | succ attempts ih =>
    cases hcancelled : s.cancelled with
    | true =>
      rw [configureLoop_cancelled cmd attempts hcancelled] at h
      cases h
    | false =>
      refine ⟨rfl, Nat.succ_pos _, ?_⟩
      rcases configureLoop_attempt cmd attempts hcancelled with
        ⟨l, resp, hasked, hack, hrun⟩ | ⟨l, errors, hl, hrun⟩
      · rw [hrun] at h
        obtain ⟨-, rfl⟩ := Prod.mk.inj h
        exact ⟨s.link, l, resp, s.errors, .refl _, hasked, hack, rfl⟩
      · rw [hrun] at h
        obtain ⟨-, -, l₁, l₂, resp, errors', hl₁, hasked, hack, rfl⟩ := ih h
        exact ⟨l₁, l₂, resp, errors', hl.trans hl₁, hasked, hack, rfl⟩

/-- A failed loop leaves the link, the errors and the phase changed at most. -/
theorem configureLoop_error {cmd : ConfigureCommand} {attempts : Nat} {e : ErrorCode}
    (h : configureLoop io cmd attempts s = (.error e, t)) :
    ∃ l errors phase, (phase = s.phase ∨ phase = .error) ∧
      t = { s.withAttempts l errors with phase := phase } := by
  induction attempts generalizing s with
  | zero =>
    obtain ⟨-, rfl⟩ := Prod.mk.inj h
    exact ⟨s.link, s.errors, .error, .inr rfl, rfl⟩
  | succ attempts ih =>
    cases hcancelled : s.cancelled with
    | true =>
      rw [configureLoop_cancelled cmd attempts hcancelled] at h
      obtain ⟨-, rfl⟩ := Prod.mk.inj h
      exact ⟨s.link, s.errors, s.phase, .inl rfl, rfl⟩
    | false =>
      rcases configureLoop_attempt cmd attempts hcancelled with
        ⟨l, resp, hasked, hack, hrun⟩ | ⟨l, errors, hl, hrun⟩
      · rw [hrun] at h
        cases h
      · rw [hrun] at h
        obtain ⟨l', errors', phase, hphase, rfl⟩ := ih h
        exact ⟨l', errors', phase, hphase, rfl⟩

theorem configureLoop_extends (cmd : ConfigureCommand) (attempts : Nat) (s : FirehoseProtocol τ) :
    Link.Extends io s.link (configureLoop io cmd attempts s).2.link := by
  induction attempts generalizing s with
  | zero => exact .refl _
  | succ attempts ih =>
    cases hcancelled : s.cancelled with
    | true =>
      rw [configureLoop_cancelled cmd attempts hcancelled]
      exact .refl _
    | false =>
      rcases configureLoop_attempt cmd attempts hcancelled with
        ⟨l, resp, hasked, hack, hrun⟩ | ⟨l, errors, hl, hrun⟩
      · rw [hrun]
        exact hasked.extends
      · rw [hrun]
        exact hl.trans (ih (s.withAttempts l errors))

theorem handshake_run (s : FirehoseProtocol τ) :
    handshake io s
      = configureLoop io (configureCommand s.config) s.config.maxConfigureRetries.toNat s := rfl

/-! ### Reset -/

theorem reset_ok (h : reset io s = (.ok (), t)) :
    s.cancelled = false ∧ ∃ l resp,
      Link.Asked io (wireText (FirehoseCommand.reset {}).serialize) s.link l resp ∧
      resp.isAck = true ∧
      t = { s.withLink l with configured := false, phase := .finished } := by
  obtain ⟨resp, s₁, hsend, h⟩ := Program.bind_eq_ok.mp h
  obtain ⟨hcancelled, l, hasked, rfl⟩ := sendCommand_ok hsend
  by_cases hack : resp.isAck = true
  · rw [if_pos hack] at h
    obtain ⟨-, rfl⟩ := Prod.mk.inj h
    exact ⟨hcancelled, l, resp, hasked, hack, rfl⟩
  · rw [if_neg hack] at h
    cases h

theorem reset_error {e : ErrorCode} (h : reset io s = (.error e, t)) : LinkExtends io s t := by
  have hsteps : LinkExtends io s (sendCommand io (.reset {}) s).2 := sendCommand_steps _ s
  rw [reset, Program.run_bind] at h
  rcases hsend : sendCommand io (.reset {}) s with ⟨e' | resp, s₁⟩
  · rw [hsend] at h hsteps
    obtain ⟨-, rfl⟩ := Prod.mk.inj h
    exact hsteps
  · rw [hsend] at h hsteps
    by_cases hack : resp.isAck = true
    · simp only [if_pos hack] at h
      cases h
    · simp only [if_neg hack] at h
      obtain ⟨-, rfl⟩ := Prod.mk.inj h
      exact hsteps

/-! ### Streaming -/

/-- The protocol after its engine has run. -/
def withEngine (s : FirehoseProtocol τ) (e : FirehoseStreamEngine τ) : FirehoseProtocol τ :=
  { s with link := e.link, streamEngine := some ⟨e.config, e.cancelled⟩ }

section Stream

variable {α : Type} {p : FirehoseStreamEngine.Method τ α}

theorem stream_unconfigured (h : s.configured = false) :
    stream p s = (.error .invalidState, s) := by
  have hcheck : checkConfigured s = (.error .invalidState, s) := by
    rw [checkConfigured, Program.run_failIf, if_pos (by simp [h])]
  exact Program.run_bind_error hcheck

/-- A configured protocol runs the engine, made new if it had none. -/
theorem stream_run (h : s.configured = true) :
    stream p s = match p s.engineOf with
      | (.ok a, e) => (.ok a, { s.withEngine e with phase := .transferring })
      | (.error code, e) => (.error code, { s.withEngine e with phase := .error }) := by
  have hcheck : checkConfigured s = (.ok (), s) :=
    Program.failIf_eq_ok.mpr ⟨by simp [h], rfl⟩
  have hengine : (createStreamEngine (setPhase .transferring s).2).2.engineOf = s.engineOf := by
    cases hs : s.streamEngine <;> simp [createStreamEngine, setPhase, engineOf, hs]
  rw [stream, Program.run_bind_ok hcheck,
    Program.run_bind_ok (show setPhase .transferring s = (.ok (), (setPhase .transferring s).2)
      from rfl),
    Program.run_bind_ok (show createStreamEngine (setPhase .transferring s).2
      = (.ok (), (createStreamEngine (setPhase .transferring s).2).2) from rfl),
    Program.run_bind_ok (Program.run_attempt _ _), onEngine, Program.run_zoom, hengine]
  rcases p s.engineOf with ⟨e | a, engine⟩ <;> rfl

theorem stream_ok {a : α} (h : stream p s = (.ok a, t)) :
    s.configured = true ∧
      ∃ e, p s.engineOf = (.ok a, e) ∧ t = { s.withEngine e with phase := .transferring } := by
  cases hconfigured : s.configured with
  | false =>
    rw [stream_unconfigured hconfigured] at h
    cases h
  | true =>
    rw [stream_run hconfigured] at h
    rcases hp : p s.engineOf with ⟨code | a', e⟩
    · rw [hp] at h
      cases h
    · rw [hp] at h
      obtain ⟨ha, rfl⟩ := Prod.mk.inj h
      obtain rfl := Except.ok.inj ha
      exact ⟨rfl, e, rfl, rfl⟩

end Stream

theorem program_ok {fuel : Nat} {cmd : ProgramCommand} {data : ByteBuffer}
    {resp : FirehoseResponse} (h : program io fuel cmd data s = (.ok resp, t)) :
    s.configured = true ∧ ∃ e,
      FirehoseStreamEngine.streamToDevice io fuel (.program cmd) data s.engineOf = (.ok (), e) ∧
      t = { s.withEngine e with phase := .firehoseReady } := by
  obtain ⟨⟨⟩, s₁, hstream, h⟩ := Program.bind_eq_ok.mp h
  obtain ⟨hconfigured, e, hengine, rfl⟩ := stream_ok hstream
  obtain ⟨⟨⟩, s₂, hphase, hdone⟩ := Program.bind_eq_ok.mp h
  obtain ⟨-, rfl⟩ := Prod.mk.inj hphase
  obtain ⟨-, rfl⟩ := Prod.mk.inj hdone
  exact ⟨hconfigured, e, hengine, rfl⟩

theorem read_ok {fuel : Nat} {cmd : ReadCommand} {data : ByteBuffer}
    (h : read io fuel cmd s = (.ok data, t)) :
    s.configured = true ∧ ∃ e,
      FirehoseStreamEngine.streamFromDevice io fuel (.read cmd)
        (cmd.sectorSize.toNat * cmd.numSectorSize.toNat) s.engineOf = (.ok data, e) ∧
      t = { s.withEngine e with phase := .transferring } :=
  stream_ok h

/-- `program` sets a phase after the engine has run; `read` does not. -/
theorem program_run (fuel : Nat) (cmd : ProgramCommand) (data : ByteBuffer)
    (h : s.configured = true) :
    program io fuel cmd data s
      = match FirehoseStreamEngine.streamToDevice io fuel (.program cmd) data s.engineOf with
        | (.ok _, e) => (.ok {}, { s.withEngine e with phase := .firehoseReady })
        | (.error code, e) => (.error code, { s.withEngine e with phase := .error }) := by
  rw [program, Program.run_bind, stream_run h]
  rcases FirehoseStreamEngine.streamToDevice io fuel (.program cmd) data s.engineOf with
    ⟨code | ⟨⟩, e⟩ <;> rfl

theorem program_unconfigured (fuel : Nat) (cmd : ProgramCommand) (data : ByteBuffer)
    (h : s.configured = false) : program io fuel cmd data s = (.error .invalidState, s) :=
  Program.run_bind_error (stream_unconfigured h)

end FirehoseProtocol

/-! ## Calls -/

namespace FirehoseCall

open FirehoseProtocol

/-- The command of a call that sends one and reads its answer. -/
def command : FirehoseCall → Option FirehoseCommand
  | sendCommand cmd => some cmd
  | erase cmd => some (.erase cmd)
  | peek cmd => some (.peek cmd)
  | poke cmd => some (.poke cmd)
  | patch cmd => some (.patch cmd)
  | powerReset cmd => some (.power cmd)
  | getStorageInfo => some .getStorageInfo
  | getSha256Digest cmd => some (.getSha256Digest cmd)
  | configureMemory cmd => some (.configureMemory cmd)
  | handshake | uploadProgrammer _ | reset | program _ _ | read _ | cancel | resetState => none

variable {τ : Type} {io : ITransport τ} {s : FirehoseProtocol τ}

/-- Such a call does what sending its command does, and may refuse a NAK. -/
theorem run_command {call : FirehoseCall} {cmd : FirehoseCommand} (h : call.command = some cmd)
    (fuel : Nat) (s : FirehoseProtocol τ) :
    call.run io fuel s = Program.void (FirehoseProtocol.sendCommand io cmd) s ∨
      call.run io fuel s = Program.void (sendCommandUnlessNak io cmd) s := by
  -- the calls that return the data of the answer
  have hdata {p : FirehoseProtocol.Method τ FirehoseResponse} :
      Program.void (p >>= fun resp => pure resp.data) s = Program.void p s := by
    rw [Program.void, Program.void, Program.run_bind, Program.run_bind, Program.run_bind]
    rcases p s with ⟨e | resp, s₁⟩ <;> rfl
  cases call <;> cases h
  case peek cmd => exact .inr hdata
  case getSha256Digest cmd => exact .inl hdata
  case sendCommand | powerReset | getStorageInfo => exact .inl rfl
  all_goals exact .inr rfl

/-- Whatever comes of such a call, it changes the link only. -/
theorem run_command_steps {call : FirehoseCall} {cmd : FirehoseCommand}
    (h : call.command = some cmd) (fuel : Nat) (s : FirehoseProtocol τ) :
    LinkExtends io s (call.run io fuel s).2 := by
  have hcases : call.run io fuel s = _ ∨ call.run io fuel s = _ := run_command h fuel s
  rcases hcases with hrun | hrun
  · rw [hrun]
    exact (sendCommand_steps cmd).void s
  · rw [hrun]
    exact (sendCommandUnlessNak_steps cmd).void s

/-- Everything but `cancel` and `resetState`. -/
def isOperation : FirehoseCall → Bool
  | cancel | resetState => false
  | _ => true

/-- Operations leave the cancel flag and the configuration alone. -/
theorem run_keeps {call : FirehoseCall} (h : call.isOperation = true) (fuel : Nat)
    (s : FirehoseProtocol τ) :
    (call.run io fuel s).2.cancelled = s.cancelled ∧ (call.run io fuel s).2.config = s.config := by
  cases hcommand : call.command with
  | some cmd =>
    obtain ⟨l, -, hstate⟩ : LinkExtends io s (call.run io fuel s).2 :=
      run_command_steps hcommand fuel s
    rw [hstate]
    exact ⟨rfl, rfl⟩
  | none =>
    cases call with
    | handshake =>
      rcases hrun : FirehoseCall.handshake.run io fuel s with ⟨e | ⟨⟩, t⟩
      · obtain ⟨l, errors, phase, -, rfl⟩ := configureLoop_error hrun
        exact ⟨rfl, rfl⟩
      · obtain ⟨-, -, l₁, l, resp, errors, -, -, -, rfl⟩ := configureLoop_ok hrun
        exact ⟨rfl, rfl⟩
    | uploadProgrammer programmerData => exact ⟨rfl, rfl⟩
    | reset =>
      rcases hrun : FirehoseCall.reset.run io fuel s with ⟨e | ⟨⟩, t⟩
      · obtain ⟨l, -, rfl⟩ := reset_error hrun
        exact ⟨rfl, rfl⟩
      · obtain ⟨-, l, resp, -, -, rfl⟩ := FirehoseProtocol.reset_ok hrun
        exact ⟨rfl, rfl⟩
    | program cmd data =>
      rw [FirehoseCall.run, Program.run_void_state]
      cases hconfigured : s.configured with
      | false =>
        rw [program_unconfigured fuel cmd data hconfigured]
        exact ⟨rfl, rfl⟩
      | true =>
        rw [program_run fuel cmd data hconfigured]
        rcases FirehoseStreamEngine.streamToDevice io fuel (.program cmd) data s.engineOf with
          ⟨code | ⟨⟩, e⟩ <;> exact ⟨rfl, rfl⟩
    | read cmd =>
      rw [FirehoseCall.run, Program.run_void_state, FirehoseProtocol.read]
      cases hconfigured : s.configured with
      | false =>
        rw [stream_unconfigured hconfigured]
        exact ⟨rfl, rfl⟩
      | true =>
        rw [stream_run hconfigured]
        rcases FirehoseStreamEngine.streamFromDevice io fuel (.read cmd)
          (cmd.sectorSize.toNat * cmd.numSectorSize.toNat) s.engineOf with
          ⟨code | data, e⟩ <;> exact ⟨rfl, rfl⟩
    | cancel | resetState => cases h
    | _ => cases hcommand

/-- Every call only adds to the I/O calls made. -/
theorem run_extends (call : FirehoseCall) (fuel : Nat) (s : FirehoseProtocol τ) :
    Link.Extends io s.link (call.run io fuel s).2.link := by
  cases hcommand : call.command with
  | some cmd =>
    obtain ⟨l, hl, hstate⟩ : LinkExtends io s (call.run io fuel s).2 :=
      run_command_steps hcommand fuel s
    rw [hstate]
    exact hl
  | none =>
    cases call with
    | handshake => exact configureLoop_extends _ _ s
    | uploadProgrammer programmerData => exact .refl _
    | reset =>
      rcases hrun : FirehoseCall.reset.run io fuel s with ⟨e | ⟨⟩, t⟩
      · obtain ⟨l, hl, rfl⟩ := reset_error hrun
        exact hl
      · obtain ⟨-, l, resp, hasked, -, rfl⟩ := FirehoseProtocol.reset_ok hrun
        exact hasked.extends
    | program cmd data =>
      rw [FirehoseCall.run, Program.run_void_state]
      cases hconfigured : s.configured with
      | false =>
        rw [program_unconfigured fuel cmd data hconfigured]
        exact .refl _
      | true =>
        obtain ⟨l, hl, hstate⟩ : FirehoseStreamEngine.LinkExtends io s.engineOf _ :=
          FirehoseStreamEngine.streamToDevice_steps fuel (.program cmd) data s.engineOf
        rw [program_run fuel cmd data hconfigured]
        rcases hrun :
            FirehoseStreamEngine.streamToDevice io fuel (.program cmd) data s.engineOf with
          ⟨code | ⟨⟩, e⟩ <;> rw [hrun] at hstate <;> rw [show e = _ from hstate] <;> exact hl
    | read cmd =>
      rw [FirehoseCall.run, Program.run_void_state, FirehoseProtocol.read]
      cases hconfigured : s.configured with
      | false =>
        rw [stream_unconfigured hconfigured]
        exact .refl _
      | true =>
        obtain ⟨l, hl, hstate⟩ : FirehoseStreamEngine.LinkExtends io s.engineOf _ :=
          FirehoseStreamEngine.streamFromDevice_steps fuel (.read cmd)
            (cmd.sectorSize.toNat * cmd.numSectorSize.toNat) s.engineOf
        rw [stream_run hconfigured]
        rcases hrun : FirehoseStreamEngine.streamFromDevice io fuel (.read cmd)
          (cmd.sectorSize.toNat * cmd.numSectorSize.toNat) s.engineOf with
          ⟨code | data, e⟩ <;> rw [hrun] at hstate <;> rw [show e = _ from hstate] <;> exact hl
    | cancel | resetState => exact .refl _
    | _ => cases hcommand

theorem run_config (call : FirehoseCall) (fuel : Nat) (s : FirehoseProtocol τ) :
    (call.run io fuel s).2.config = s.config := by
  cases hop : call.isOperation with
  | true => exact (run_keeps hop fuel s).2
  | false => cases call <;> first | rfl | cases hop

/-- Whether a cancel is pending after a call, given whether one was before. -/
def cancelAfter (pending : Bool) : FirehoseCall → Bool
  | cancel => true
  | resetState => false
  | _ => pending

/-- The calls made a cancel that no `resetState` has undone. -/
def cancelPending (calls : List FirehoseCall) : Bool := calls.foldl cancelAfter false

theorem run_cancelAfter (call : FirehoseCall) (fuel : Nat) (s : FirehoseProtocol τ) :
    (call.run io fuel s).2.cancelled = cancelAfter s.cancelled call := by
  cases hop : call.isOperation with
  | true =>
    rw [(run_keeps hop fuel s).1]
    cases call <;> first | rfl | cases hop
  | false => cases call <;> first | rfl | cases hop

theorem final_cancelled (fuel : Nat) (calls : List FirehoseCall) (s : FirehoseProtocol τ) :
    (CallRun.final (FirehoseCall.run io fuel) calls s).cancelled
      = calls.foldl cancelAfter s.cancelled := by
  induction calls generalizing s with
  | nil => rfl
  | cons call calls ih => rw [CallRun.final_cons, ih, List.foldl_cons, run_cancelAfter]

end FirehoseCall

end MBootCore
