import MBootCore.Firehose.ChunkEngine
import MBootCore.Firehose.ReportedStreams

/-!
# Firehose — ChunkDelivery

What the two sending streams put on the wire. Both are the loop of a `ChunkSender`,
whose rounds write their chunk once or fail; what the loop delivers is read off its log.
-/

namespace MBootCore

open ChunkEvent

/-- What a stream that sends `data` in chunks of at most `chunkSize` bytes ended with,
and what it logged: the written chunks begin the data and are the data when it
succeeded, and the progress it reported never fell and never passed the total. -/
structure DeliversData (chunkSize : Nat) (data : ByteBuffer) (r : Except ErrorCode Unit)
    (log : List (ChunkEvent UInt8)) : Prop where
  chunks : ∀ chunk ∈ written log, chunk ≠ [] ∧ chunk.length ≤ chunkSize
  whole : r.isOk = true → (written log).flatten = data
  begun : (written log).flatten <+: data
  rising : (reports log).Pairwise fun r r' => r.1 ≤ r'.1
  within : ∀ r ∈ reports log, r.1 ≤ data.length ∧ r.2 = data.length

theorem DeliversData.nothing (chunkSize : Nat) (data : ByteBuffer) (code : ErrorCode) :
    DeliversData chunkSize data (.error code) [] where
  chunks := by simp
  whole := by rintro ⟨⟩
  begun := List.nil_prefix
  rising := List.Pairwise.nil
  within := by simp

/-- The loop over the whole buffer, from an empty log; a stream succeeds when its loop
does and nobody has stopped it. -/
theorem ChunkSender.Lawful.deliversData {S : Type} {k : ChunkSender S UInt8 ErrorCode}
    (hk : k.Lawful) {fuel : Nat} {data : ByteBuffer} {s t : S} {log : List (ChunkEvent UInt8)}
    {out : Except ErrorCode Nat} {r : Except ErrorCode Unit} (hsize : 0 < k.chunkSize s)
    (hrun : k.loop data.length fuel 0 data (s, []) = (out, (t, log)))
    (hr : r.isOk = true → out.isOk = true ∧ k.stopped t = false) :
    DeliversData (k.chunkSize s) data r log := by
  obtain ⟨new, hlog, hdelivery, hdone⟩ := ChunkSender.loop_delivers hk data.length fuel 0 data
    (s, []) hsize
  rw [hrun] at hlog hdone
  obtain rfl : log = new := hlog
  constructor
  · exact hdelivery.chunks
  · intro hok
    obtain ⟨hout, hrunning⟩ := hr hok
    rcases out with e | n
    · cases hout
    · exact (hdone n rfl hrunning).2
  · exact hdelivery.inOrder
  · exact hdelivery.rising
  · intro r hr
    obtain ⟨-, hle, htotal⟩ := hdelivery.within r hr
    exact ⟨by omega, htotal⟩

/-! ## ChunkEngine -/

namespace ChunkEngine

variable {σ : Type} (cb : Callbacks σ)

/-- Whatever a callback does, `g` of the engine stays as it is. -/
def Keeps {γ : Type} (g : ChunkEngine σ → γ) : Prop :=
  ∀ (α : Type) (f : σ → Except ErrorCode α × σ), Program.Preserves g (callback cb f)

theorem keeps_config : Keeps cb config := by
  intro α f e
  suffices h : ∀ (calls : List Call) (e : ChunkEngine σ),
      (calls.foldl Call.run e).config = e.config from
    h _ _
  intro calls
  induction calls with
  | nil => intro e; rfl
  | cons call calls ih =>
    intro e
    rw [List.foldl_cons, ih]
    cases call <;> rfl

namespace Keeps

variable {cb} {γ : Type} {g : ChunkEngine σ → γ} (hg : Keeps cb g)
include hg

theorem noting {α : Type} (f : σ → Except ErrorCode α × σ)
    (note : Except ErrorCode α → List (ChunkEvent UInt8)) :
    Program.Preserves (fun s => g s.1) (Traced.noting note (callback cb f)) :=
  fun s => hg α f s.1

theorem response : Program.Preserves (fun s => g s.1) (ChunkEngine.response cb) := by
  rw [ChunkEngine.response]
  cases cb.responseFn with
  | none => exact Program.Preserves.pure ()
  | some responseFn => exact hg.noting _ _

theorem report (transferred total : Nat) :
    Program.Preserves (fun s => g s.1) (ChunkEngine.report cb transferred total) := by
  rw [ChunkEngine.report]
  cases cb.progress with
  | none => exact Program.Preserves.pure ()
  | some progress => exact hg.noting _ _

theorem writeRetrying (chunk : ByteBuffer) :
    Program.Preserves (fun s => g s.1) (ChunkEngine.writeRetrying cb chunk) :=
  Program.Preserves.retryOnce _ (hg.noting _ _)

theorem sendRound (chunk : ByteBuffer) :
    Program.Preserves (fun s => g s.1) (ChunkEngine.sendRound cb chunk) :=
  Program.Preserves.bind (hg.writeRetrying chunk) fun _ => hg.response

end Keeps

theorem response_yields : Traced.Yields (fun _ new => written new = [] ∧ reports new = [])
    (response cb) := by
  rw [response]
  cases cb.responseFn with
  | none => exact Traced.Yields.pure ⟨rfl, rfl⟩
  | some responseFn => exact Traced.Yields.noting (fun _ => ⟨rfl, rfl⟩) _

theorem sendRound_yields (chunk : ByteBuffer) :
    Traced.Yields (ChunkSender.WritesOnce chunk) (sendRound cb chunk) :=
  ChunkSender.WritesOnce.bind
    (Traced.Yields.mono (fun _ _ h => h.writesOnce)
      (ChunkSender.yields_retryOnce fun _ => ⟨_, rfl, rfl⟩))
    (response_yields cb)

theorem report_yields (transferred total : Nat) :
    Traced.Yields (fun r new => r.isOk = true ∧ written new = [] ∧
      (reports new = [] ∨ reports new = [(transferred, total)])) (report cb transferred total) := by
  rw [report]
  cases cb.progress with
  | none => exact Traced.Yields.pure ⟨rfl, rfl, .inl rfl⟩
  | some progress => exact fun s => ⟨[.reported transferred total], rfl, rfl, rfl, .inr rfl⟩

theorem sender_lawful : (sender cb).Lawful where
  round_yields := sendRound_yields cb
  report_yields := report_yields cb
  round_size chunk := ((keeps_config cb).sendRound chunk).map ChunkEngineConfig.chunkSize
  report_size n total := ((keeps_config cb).report n total).map ChunkEngineConfig.chunkSize

theorem streamToTarget_delivers (fuel : Nat) (data : ByteBuffer) (e : ChunkEngine σ)
    (hsize : 0 < e.config.chunkSize) :
    DeliversData e.config.chunkSize data (streamToTarget cb fuel data (e, [])).1
      ((streamToTarget cb fuel data).events e) := by
  rw [Traced.events, streamToTarget, Program.run_bind, checkCancelled, Program.run_failIf]
  cases he : e.cancelled with
  | true => exact DeliversData.nothing _ data _
  | false =>
    rcases hloop : (sender cb).loop data.length fuel 0 data (e, []) with ⟨out, t, log⟩
    cases out with
    | error code =>
      simp only [Bool.false_eq_true, if_false, Program.run_bind_error hloop]
      exact (sender_lawful cb).deliversData hsize hloop (by rintro ⟨⟩)
    | ok n =>
      simp only [Bool.false_eq_true, if_false, Program.run_bind_ok hloop, Program.run_bind,
        Program.run_failIf]
      cases ht : t.cancelled with
      | true => exact (sender_lawful cb).deliversData hsize hloop (by rintro ⟨⟩)
      | false => exact (sender_lawful cb).deliversData hsize hloop fun _ => ⟨rfl, ht⟩

end ChunkEngine

/-! ## FirehoseStreamEngine -/

namespace FirehoseStreamEngine.Surroundings

variable {τ : Type} (w : Surroundings τ)

theorem config_foldl_run (calls : List Call) (e : FirehoseStreamEngine τ) :
    (calls.foldl Call.run e).config = e.config := by
  induction calls generalizing e with
  | nil => rfl
  | cons call calls ih =>
    rw [List.foldl_cons, ih]
    cases call <;> rfl

theorem config_heeding {α : Type} {p : FirehoseStreamEngine.Method τ α}
    (hp : Program.Preserves config p) : Program.Preserves config (w.heeding p) := by
  intro e
  exact (config_foldl_run _ _).trans (hp e)

theorem config_onLink {α : Type} (p : Program (Link τ) ErrorCode α) :
    Program.Preserves config (onLink p) :=
  fun _ => rfl

/-- A step of the engine that ends with an I/O call. -/
theorem config_checked {α : Type} {p : FirehoseStreamEngine.Method τ α}
    (hp : Program.Preserves config p) :
    Program.Preserves config (FirehoseStreamEngine.checkCancelled >>= fun _ => p) :=
  Program.Preserves.bind (fun _ => rfl) fun _ => hp

theorem config_sendChunk (chunk : ByteBuffer) :
    Program.Preserves (fun s => s.1.config) (w.sendChunk chunk) :=
  fun s => w.config_heeding (config_checked (Program.Preserves.bind (config_onLink _) fun _ =>
    Program.Preserves.pure ())) s.1

theorem config_receiveResponse :
    Program.Preserves (fun s => s.1.config) w.receiveResponse :=
  fun s => w.config_heeding (config_checked (Program.Preserves.bind (config_onLink _) fun _ =>
    Program.Preserves.pure _)) s.1

theorem config_sendCommand (command : FirehoseCommand) :
    Program.Preserves (fun s => s.1.config) (w.sendCommand command) :=
  fun s => w.config_heeding (config_checked (Program.Preserves.bind (Program.Preserves.ofExcept _)
    fun _ => Program.Preserves.bind (config_onLink _) fun _ => Program.Preserves.pure _)) s.1

theorem config_report (transferred total : Nat) :
    Program.Preserves (fun s => s.1.config) (w.report transferred total) := by
  rw [report]
  cases w.progress with
  | none => exact Program.Preserves.pure ()
  | some progress => exact fun s => w.config_heeding (config_onLink _) s.1

theorem config_sendRound (chunk : ByteBuffer) :
    Program.Preserves (fun s => s.1.config) (w.sendRound chunk) := by
  refine Program.Preserves.bind ?_ fun _ => ?_
  · exact Program.Preserves.retryOnce _ (w.config_sendChunk chunk)
  · refine Program.Preserves.bind w.config_receiveResponse fun resp => ?_
    by_cases hnak : resp.isNak = true
    · simp only [if_pos hnak]
      exact Program.Preserves.fail _
    · simp only [if_neg hnak]
      exact Program.Preserves.pure ()

theorem answer_yields : Traced.Yields (fun _ new => written new = [] ∧ reports new = [])
    (w.receiveResponse >>= fun resp =>
      if resp.isNak then Program.fail .protocolError else pure ()) := by
  refine Traced.Yields.bind (Q := fun _ new => written new = [] ∧ reports new = [])
    (Traced.Yields.noting (fun _ => ⟨rfl, rfl⟩) _) (fun _ _ h => h) ?_
  rintro resp new ⟨hwritten, hreports⟩
  by_cases hnak : resp.isNak = true
  · rw [if_pos hnak]
    exact Traced.Yields.fail (by simp [hwritten, hreports])
  · rw [if_neg hnak]
    exact Traced.Yields.pure (by simp [hwritten, hreports])

theorem sendRound_yields (chunk : ByteBuffer) :
    Traced.Yields (ChunkSender.WritesOnce chunk) (w.sendRound chunk) :=
  ChunkSender.WritesOnce.bind
    (Traced.Yields.mono (fun _ _ h => h.writesOnce)
      (ChunkSender.yields_retryOnce fun _ => ⟨_, rfl, rfl⟩))
    w.answer_yields

theorem report_yields (transferred total : Nat) :
    Traced.Yields (fun r new => r.isOk = true ∧ written new = [] ∧
      (reports new = [] ∨ reports new = [(transferred, total)])) (w.report transferred total) := by
  rw [report]
  cases w.progress with
  | none => exact Traced.Yields.pure ⟨rfl, rfl, .inl rfl⟩
  | some progress => exact fun s => ⟨[.reported transferred total], rfl, rfl, rfl, .inr rfl⟩

theorem sender_lawful : w.sender.Lawful where
  round_yields := w.sendRound_yields
  report_yields := w.report_yields
  round_size chunk := (w.config_sendRound chunk).map FirehoseStreamConfig.chunkSizeToTarget
  report_size n total := (w.config_report n total).map FirehoseStreamConfig.chunkSizeToTarget

theorem streamToDevice_delivers (fuel : Nat) (command : FirehoseCommand) (data : ByteBuffer)
    (e : FirehoseStreamEngine τ) (hsize : 0 < e.config.chunkSizeToTarget) :
    DeliversData e.config.chunkSizeToTarget data (w.streamToDevice fuel command data (e, [])).1
      ((w.streamToDevice fuel command data).events e) := by
  have hcheck (s : FirehoseStreamEngine τ × List (ChunkEvent UInt8)) :
      (checkCancelled : Method τ Unit) s
        = (if s.1.cancelled then .error .cancelled else .ok (), s) := rfl
  rw [Traced.events, streamToDevice, Program.run_bind, hcheck]
  cases he : e.cancelled with
  | true => exact DeliversData.nothing _ data _
  | false =>
    rcases hheed : w.heeding (FirehoseStreamEngine.sendCommand w.io command) e with ⟨r, s⟩
    have hsend : w.sendCommand command (e, []) = (r, (s, [])) := by
      rw [sendCommand, Traced.run_quiet, hheed]
    have hconfig : s.config = e.config := by
      have hkept := w.config_sendCommand command (e, [])
      rw [hsend] at hkept
      exact hkept
    simp only [Bool.false_eq_true, if_false]
    rw [← hconfig] at hsize ⊢
    cases r with
    | error code =>
      rw [Program.run_bind_error hsend]
      exact DeliversData.nothing _ data _
    | ok =>
      rw [Program.run_bind_ok hsend]
      rcases hloop : w.sender.loop data.length fuel 0 data (s, []) with ⟨out, t, log⟩
      cases out with
      | error code =>
        rw [Program.run_bind_error hloop]
        exact w.sender_lawful.deliversData hsize hloop (by rintro ⟨⟩)
      | ok n =>
        rw [Program.run_bind_ok hloop, hcheck]
        cases ht : t.cancelled with
        | true => exact w.sender_lawful.deliversData hsize hloop (by rintro ⟨⟩)
        | false => exact w.sender_lawful.deliversData hsize hloop fun _ => ⟨rfl, ht⟩

end FirehoseStreamEngine.Surroundings

/-- Either stream, to any target: what it writes and what it reports. -/
theorem streams_deliver {σ τ : Type} (cb : ChunkEngine.Callbacks σ)
    (w : FirehoseStreamEngine.Surroundings τ) (fuel : Nat) (command : FirehoseCommand)
    (data : ByteBuffer) (c : ChunkEngine σ) (hc : 0 < c.config.chunkSize)
    (e : FirehoseStreamEngine τ) (he : 0 < e.config.chunkSizeToTarget) :
    DeliversData c.config.chunkSize data (ChunkEngine.streamToTarget cb fuel data (c, [])).1
        ((ChunkEngine.streamToTarget cb fuel data).events c) ∧
      DeliversData e.config.chunkSizeToTarget data (w.streamToDevice fuel command data (e, [])).1
        ((w.streamToDevice fuel command data).events e) :=
  ⟨ChunkEngine.streamToTarget_delivers cb fuel data c hc,
    w.streamToDevice_delivers fuel command data e he⟩

theorem streams_deliver_threeBytes :
    let c : ChunkEngine Nat := ⟨0, { chunkSize := 2 }, false, 0⟩
    let e : FirehoseStreamEngine Transport :=
      ⟨⟨⟨[], [], []⟩, []⟩, { chunkSizeToTarget := 2 }, false⟩
    let w := FirehoseStreamEngine.Surroundings.alone Transport.io
    DeliversData 2 [1, 2, 3] (ChunkEngine.streamToTarget .healthy 3 [1, 2, 3] (c, [])).1
        ((ChunkEngine.streamToTarget .healthy 3 [1, 2, 3]).events c) ∧
      DeliversData 2 [1, 2, 3] (w.streamToDevice 3 .nop [1, 2, 3] (e, [])).1
        ((w.streamToDevice 3 .nop [1, 2, 3]).events e) := by
  intro c e w
  exact streams_deliver .healthy w 3 .nop [1, 2, 3] c Nat.zero_lt_two e Nat.zero_lt_two

end MBootCore
