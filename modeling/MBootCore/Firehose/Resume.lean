import MBootCore.Firehose.ChunkDelivery

/-!
# Firehose — Resume

A transfer that failed is taken up again where the engine says it stopped. The engine
notes an offset only when a whole transfer has succeeded, so what it says after a failure
is what it said before: right only if no byte more has been acknowledged since.
-/

namespace MBootCore

open ChunkEvent

namespace ChunkEngine

variable {σ : Type}

/-! ## Attempts -/

/-- A target to send to, in the state it is found in. It only answers: nobody asks
anything of the engine meanwhile. -/
structure Attempt (σ : Type) where
  target : Callbacks σ
  world : σ
  unasked : ∀ w, target.calls w = []

/-- A target that refuses nothing. -/
def Attempt.Healthy (a : Attempt σ) : Prop :=
  (∀ chunk w, (a.target.writeFn chunk w).1 = .ok ()) ∧
    ∀ f, a.target.responseFn = some f → ∀ w, (f w).1 = .ok ()

/-- The chunks that were written and, where the target answers, answered for: each answer
is for the chunk written before it. -/
def acknowledged (cb : Callbacks σ) (log : List (ChunkEvent UInt8)) : List ByteBuffer :=
  if cb.responseFn.isSome then (written log).take (log.count (.answered true)) else written log

/-- The engine, turned to a target. -/
def facing (e : ChunkEngine σ) (a : Attempt σ) : ChunkEngine σ := { e with world := a.world }

/-- One run of an engine: how it ended, the engine after it, and the log. -/
structure Sent (σ : Type) where
  result : Except ErrorCode Unit
  engine : ChunkEngine σ
  log : List (ChunkEvent UInt8)

/-- What a method of an engine does on a target. -/
def Attempt.run (a : Attempt σ) (p : Method σ Unit) (e : ChunkEngine σ) : Sent σ :=
  ⟨(p (e.facing a, [])).1, (p (e.facing a, [])).2.1, (p (e.facing a, [])).2.2⟩

/-- With more fuel than bytes the run ends by itself. -/
def send (e : ChunkEngine σ) (a : Attempt σ) (data : ByteBuffer) : Sent σ :=
  a.run (streamToTarget a.target (data.length + 1) data) e

/-- All the data from an offset on. -/
def resume (e : ChunkEngine σ) (a : Attempt σ) (data : ByteBuffer) (offset : Nat) : Sent σ :=
  a.run (streamToTargetPartial a.target (data.length + 1) data offset (data.length - offset)) e

/-- The bytes a run wrote. -/
def Sent.bytes (s : Sent σ) : ByteBuffer := (written s.log).flatten

/-- The number of bytes a run had acknowledged. -/
def Sent.acknowledged (s : Sent σ) (a : Attempt σ) : Nat :=
  (ChunkEngine.acknowledged a.target s.log).flatten.length

/-- After `before` has been written and `k` bytes acknowledged: the transfer is resumed at
`k` on one target after the other, the last a healthy one. A run that succeeds writes just
what was missing, and a run that fails leaves the engine at the bytes acknowledged so far. -/
def ResumesFrom (data : ByteBuffer) :
    List (Attempt σ) → ChunkEngine σ → Nat → ByteBuffer → Prop
  | [], e, k, before => ∀ a : Attempt σ, a.Healthy →
      (e.resume a data k).result.isOk = true ∧ (e.resume a data k).bytes = data.drop k ∧
        before ++ (e.resume a data k).bytes = data
  | a :: as, e, k, before =>
    let run := e.resume a data k
    if run.result.isOk then run.bytes = data.drop k ∧ before ++ run.bytes = data
    else run.engine.resumeOffset = k + run.acknowledged a ∧
      ResumesFrom data as run.engine (k + run.acknowledged a) (before ++ run.bytes)

/-- A transfer that fails can be resumed, again and again, until every byte has been
written once. -/
def ResumesOnce (data : ByteBuffer) (a : Attempt σ) (as : List (Attempt σ))
    (e : ChunkEngine σ) : Prop :=
  let run := e.send a data
  run.result.isOk = false → run.engine.resumeOffset = run.acknowledged a ∧
    ResumesFrom data as run.engine (run.acknowledged a) run.bytes

/-! ## Failure points -/

/-- How much of `rest` goes into the next chunk. -/
def nextSize (rest : ByteBuffer) (e : ChunkEngine σ) : Nat := min rest.length e.config.chunkSize

theorem take_nextSize (rest : ByteBuffer) (e : ChunkEngine σ) :
    rest.take (nextSize rest e) = rest.take e.config.chunkSize := by
  rw [nextSize]
  rcases Nat.le_total rest.length e.config.chunkSize with hle | hle
  · rw [Nat.min_eq_left hle, List.take_of_length_le hle, List.take_of_length_le (Nat.le_refl _)]
  · rw [Nat.min_eq_right hle]

/-- Which chunk a target refuses, counted from the first, and whether it had taken it and
then refused to answer for it. -/
inductive FailsAt (cb : Callbacks σ) (total : Nat) :
    Nat → ByteBuffer → ChunkEngine σ × List (ChunkEvent UInt8) → Nat → Bool → Prop
  | refused {sent rest s code t} : rest ≠ [] →
      writeRetrying cb (rest.take (nextSize rest s.1)) s = (.error code, t) →
      FailsAt cb total sent rest s 0 false
  | unanswered {sent rest s s₁ code t} : rest ≠ [] →
      writeRetrying cb (rest.take (nextSize rest s.1)) s = (.ok (), s₁) →
      response cb s₁ = (.error code, t) → FailsAt cb total sent rest s 0 true
  | later {sent rest s s₁ s₂ n taken} : rest ≠ [] →
      sendRound cb (rest.take (nextSize rest s.1)) s = (.ok (), s₁) →
      report cb (sent + nextSize rest s.1) total s₁ = (.ok (), s₂) →
      FailsAt cb total (sent + nextSize rest s.1) (rest.drop (nextSize rest s.1)) s₂ n taken →
      FailsAt cb total sent rest s (n + 1) taken

/-- The chunk of the data that the target refuses. -/
def Refuses (e : ChunkEngine σ) (a : Attempt σ) (data : ByteBuffer) (n : Nat) (taken : Bool) :
    Prop :=
  FailsAt a.target data.length 0 data (e.facing a, []) n taken

/-- The targets that refuse something of what follows `offset` refuse to take its first
chunk, up to one that takes everything. -/
def RefuseAtOnce (e : ChunkEngine σ) (data : ByteBuffer) (offset : Nat) :
    List (Attempt σ) → Prop
  | [] => True
  | a :: as => ∀ n taken, e.Refuses a (data.drop offset) n taken →
      n = 0 ∧ taken = false ∧ RefuseAtOnce e data offset as

/-! ## One run -/

/-- What the engine keeps while nobody asks anything of it. -/
def standing (e : ChunkEngine σ) : ChunkEngineConfig × Bool × Nat :=
  (e.config, e.cancelled, e.resumeOffset)

theorem keeps_standing {cb : Callbacks σ} (h : ∀ w, cb.calls w = []) : Keeps cb standing := by
  intro α f e
  rw [callback, h]
  rfl

theorem eq_facing {e e' : ChunkEngine σ} (h : standing e' = standing e) (a : Attempt σ) :
    e'.facing a = e.facing a := by
  obtain ⟨world, config, cancelled, resumeOffset⟩ := e
  obtain ⟨world', config', cancelled', resumeOffset'⟩ := e'
  simp only [standing, Prod.mk.injEq] at h
  obtain ⟨rfl, rfl, rfl⟩ := h
  rfl

/-- A chunk is refused in one way only. -/
theorem FailsAt.unique {cb : Callbacks σ} {total sent n n' : Nat} {rest : ByteBuffer}
    {s : ChunkEngine σ × List (ChunkEvent UInt8)} {taken taken' : Bool}
    (h : FailsAt cb total sent rest s n taken) (h' : FailsAt cb total sent rest s n' taken') :
    n = n' ∧ taken = taken' := by
  induction h generalizing n' taken' with
  | refused _ hwrite =>
    cases h' with
    | refused => exact ⟨rfl, rfl⟩
    | unanswered _ hwrite' => rw [hwrite] at hwrite'; cases hwrite'
    | later _ hround => rw [sendRound, Program.run_bind_error hwrite] at hround; cases hround
  | unanswered _ hwrite hresponse =>
    cases h' with
    | refused _ hwrite' => rw [hwrite] at hwrite'; cases hwrite'
    | unanswered => exact ⟨rfl, rfl⟩
    | later _ hround =>
      rw [sendRound, Program.run_bind_ok hwrite, hresponse] at hround
      cases hround
  | later _ hround hreport _ ih =>
    cases h' with
    | refused _ hwrite' => rw [sendRound, Program.run_bind_error hwrite'] at hround; cases hround
    | unanswered _ hwrite' hresponse' =>
      rw [sendRound, Program.run_bind_ok hwrite', hresponse'] at hround
      cases hround
    | later _ hround' hreport' hrest' =>
      rw [hround] at hround'
      cases hround'
      rw [hreport] at hreport'
      cases hreport'
      obtain ⟨rfl, rfl⟩ := ih hrest'
      exact ⟨rfl, rfl⟩

/-! ### What a step logs -/

theorem count_answered_of_writes {chunk : ByteBuffer} {new : List (ChunkEvent UInt8)}
    (h : ∀ event ∈ new, ∃ ok, event = .wrote chunk ok) : new.count (.answered true) = 0 := by
  rw [List.count_eq_zero]
  intro hmem
  obtain ⟨ok, hok⟩ := h _ hmem
  cases hok

theorem acknowledged_append (cb : Callbacks σ) {log : List (ChunkEvent UInt8)}
    (h : cb.responseFn.isSome = true → log.count (.answered true) = (written log).length)
    (more : List (ChunkEvent UInt8)) :
    acknowledged cb (log ++ more) = written log ++ acknowledged cb more := by
  unfold acknowledged
  cases hanswers : cb.responseFn.isSome with
  | false => simp
  | true =>
    simp only [if_true, written_append, List.count_append, h hanswers]
    rw [List.take_append, List.take_of_length_le (Nat.le_add_right _ _), Nat.add_sub_cancel_left]

section Logs

variable {cb : Callbacks σ} {chunk : ByteBuffer} {s t : ChunkEngine σ × List (ChunkEvent UInt8)}

theorem writeRetrying_logs {r : Except ErrorCode Unit} (h : writeRetrying cb chunk s = (r, t)) :
    ∃ new, t.2 = s.2 ++ new ∧ written new = (if r.isOk then [chunk] else []) ∧
      new.count (.answered true) = 0 := by
  have hyields : Traced.Yields (ChunkSender.OnlyWrites chunk) (writeRetrying cb chunk) :=
    ChunkSender.yields_retryOnce fun _ => ⟨_, rfl, rfl⟩
  obtain ⟨new, hlog, hevents, hwritten⟩ := hyields s
  rw [h] at hlog hwritten
  exact ⟨new, hlog, hwritten, count_answered_of_writes hevents⟩

theorem response_none (h : cb.responseFn = none) : response cb = pure () := by
  rw [response, h]

theorem response_some {f : σ → Except ErrorCode Unit × σ} (h : cb.responseFn = some f) :
    response cb = Traced.noting (fun r => [.answered r.isOk]) (callback cb f) := by
  rw [response, h]

theorem response_ok (h : response cb s = (.ok (), t)) :
    ∃ new, t.2 = s.2 ++ new ∧ written new = [] ∧
      (cb.responseFn.isSome = true → new.count (.answered true) = 1) := by
  cases hfn : cb.responseFn with
  | none =>
    rw [response_none hfn, Program.run_pure, Prod.mk.injEq] at h
    exact ⟨[], by rw [← h.2, List.append_nil], rfl, by rintro ⟨⟩⟩
  | some f =>
    rw [response_some hfn, Traced.run_noting, Prod.mk.injEq] at h
    refine ⟨[.answered true], ?_, rfl, fun _ => rfl⟩
    rw [← h.2, h.1]
    rfl

theorem response_error {code : ErrorCode} (h : response cb s = (.error code, t)) :
    cb.responseFn.isSome = true ∧ t.2 = s.2 ++ [.answered false] := by
  cases hfn : cb.responseFn with
  | none =>
    rw [response_none hfn, Program.run_pure] at h
    cases h
  | some f =>
    rw [response_some hfn, Traced.run_noting, Prod.mk.injEq] at h
    refine ⟨rfl, ?_⟩
    rw [← h.2, h.1]
    rfl

/-- A round that ends well. -/
theorem sendRound_ok (h : sendRound cb chunk s = (.ok (), t)) :
    ∃ new, t.2 = s.2 ++ new ∧ written new = [chunk] ∧
      (cb.responseFn.isSome = true → new.count (.answered true) = 1) := by
  obtain ⟨⟨⟩, s₁, hwrite, hresponse⟩ := Program.bind_eq_ok.mp h
  obtain ⟨new, hlog, hwritten, hcount⟩ := writeRetrying_logs hwrite
  obtain ⟨more, hmore, hmoreWritten, hmoreCount⟩ := response_ok hresponse
  refine ⟨new ++ more, by rw [hmore, hlog, List.append_assoc], ?_, fun hanswers => ?_⟩
  · rw [written_append, hwritten, hmoreWritten]
    rfl
  · rw [List.count_append, hcount, hmoreCount hanswers]

theorem report_logs (cb : Callbacks σ) (n total : Nat)
    (s : ChunkEngine σ × List (ChunkEvent UInt8)) :
    ∃ t new, report cb n total s = (.ok (), t) ∧ t.2 = s.2 ++ new ∧ written new = [] ∧
      new.count (.answered true) = 0 := by
  rw [report]
  cases cb.progress with
  | none => exact ⟨s, [], rfl, by rw [List.append_nil], rfl, rfl⟩
  | some progress => exact ⟨_, [.reported n total], rfl, rfl, rfl, rfl⟩

end Logs

/-! ### The loop -/

/-- How a loop ends that nobody stops: it sends everything, or its target refuses a chunk;
then all the chunks before that one have been written and acknowledged. -/
theorem loop_cases (a : Attempt σ) (total sent : Nat) (rest : ByteBuffer) {fuel : Nat}
    {s : ChunkEngine σ × List (ChunkEvent UInt8)} (hs : s.1.cancelled = false)
    (hsize : 0 < s.1.config.chunkSize) (hfuel : rest.length < fuel) :
    (∃ t new, (sender a.target).loop total fuel sent rest s = (.ok (sent + rest.length), t) ∧
        t.2 = s.2 ++ new ∧ standing t.1 = standing s.1 ∧ (written new).flatten = rest ∧
        ∀ n taken, ¬ FailsAt a.target total sent rest s n taken) ∨
      ∃ n taken code t new,
        (sender a.target).loop total fuel sent rest s = (.error code, t) ∧
        FailsAt a.target total sent rest s n taken ∧ n * s.1.config.chunkSize < rest.length ∧
        t.2 = s.2 ++ new ∧ standing t.1 = standing s.1 ∧
        (written new).flatten = rest.take ((n + taken.toNat) * s.1.config.chunkSize) ∧
        (acknowledged a.target new).flatten = rest.take (n * s.1.config.chunkSize) := by
  have hkeeps := keeps_standing a.unasked
  induction fuel generalizing sent rest s with
  | zero => omega
  | succ fuel ih =>
    by_cases hrest : rest = []
    · subst hrest
      refine .inl ⟨s, [], ChunkSender.loop_done (.inl rfl), by rw [List.append_nil], rfl, rfl, ?_⟩
      rintro n taken h
      cases h <;> contradiction
    · have hlength : 0 < rest.length := List.length_pos_iff.mpr hrest
      have hrun : (sender a.target).loop total (fuel + 1) sent rest s = (do
          sendRound a.target (rest.take (nextSize rest s.1))
          report a.target (sent + nextSize rest s.1) total
          (sender a.target).loop total fuel (sent + nextSize rest s.1)
            (rest.drop (nextSize rest s.1)) : Method σ Nat) s := ChunkSender.loop_run hrest hs
      have hwriteKeeps := hkeeps.writeRetrying (rest.take (nextSize rest s.1)) s
      rcases hwrite : writeRetrying a.target (rest.take (nextSize rest s.1)) s with ⟨code | ⟨⟩, s₁⟩
      · -- the chunk is refused
        obtain ⟨new, hlog, hwritten, hcount⟩ := writeRetrying_logs hwrite
        rw [hwrite] at hwriteKeeps
        have hnothing : written new = [] := hwritten
        refine .inr ⟨0, false, code, s₁, new, ?_, .refused hrest hwrite, by omega, hlog,
          hwriteKeeps, ?_, ?_⟩
        · rw [hrun, sendRound, Program.run_bind_error (Program.run_bind_error hwrite)]
        · rw [hnothing]
          simp
        · rw [acknowledged, hnothing]
          simp
      · rcases hresponse : response a.target s₁ with ⟨code | ⟨⟩, s₂⟩
        · -- the chunk is taken and its answer refused
          obtain ⟨new, hlog, hwritten, hcount⟩ := writeRetrying_logs hwrite
          obtain ⟨hanswers, hlog'⟩ := response_error hresponse
          have hround :
              sendRound a.target (rest.take (nextSize rest s.1)) s = (.error code, s₂) := by
            rw [sendRound, Program.run_bind_ok hwrite, hresponse]
          have hkept := hkeeps.sendRound (rest.take (nextSize rest s.1)) s
          rw [hround] at hkept
          have hall : written (new ++ [.answered false]) = [rest.take (nextSize rest s.1)] := by
            rw [written_append, hwritten]
            rfl
          refine .inr ⟨0, true, code, s₂, new ++ [.answered false], ?_,
            .unanswered hrest hwrite hresponse, by omega,
            by rw [hlog', hlog, List.append_assoc], hkept, ?_, ?_⟩
          · rw [hrun, Program.run_bind_error hround]
          · rw [hall, List.flatten_singleton, take_nextSize]
            simp
          · rw [acknowledged, if_pos hanswers, List.count_append, hcount]
            simp
        · -- the chunk is acknowledged
          have hround :
              sendRound a.target (rest.take (nextSize rest s.1)) s = (.ok (), s₂) := by
            rw [sendRound, Program.run_bind_ok hwrite, hresponse]
          obtain ⟨new, hlog, hwritten, hcount⟩ := sendRound_ok hround
          have hkept := hkeeps.sendRound (rest.take (nextSize rest s.1)) s
          rw [hround] at hkept
          obtain ⟨s₃, told, hreport, htold, htoldWritten, htoldCount⟩ :=
            report_logs a.target (sent + nextSize rest s.1) total s₂
          have hkept' := hkeeps.report (sent + nextSize rest s.1) total s₂
          rw [hreport] at hkept'
          have hstanding : standing s₃.1 = standing s.1 := hkept'.trans hkept
          have hstep : (sender a.target).loop total (fuel + 1) sent rest s
              = (sender a.target).loop total fuel (sent + nextSize rest s.1)
                (rest.drop (nextSize rest s.1)) s₃ := by
            rw [hrun, Program.run_bind_ok hround, Program.run_bind_ok hreport]
          have hconfig : s₃.1.config = s.1.config := congrArg Prod.fst hstanding
          have hcancelled : s₃.1.cancelled = false :=
            (congrArg (fun g => g.2.1) hstanding).trans hs
          have hsome : 0 < nextSize rest s.1 ∧ nextSize rest s.1 ≤ rest.length := by
            unfold nextSize
            omega
          have hdrop :
              (rest.drop (nextSize rest s.1)).length + nextSize rest s.1 = rest.length := by
            rw [List.length_drop]
            omega
          have hmoreLog (more : List (ChunkEvent UInt8)) :
              s₃.2 ++ more = s.2 ++ (new ++ (told ++ more)) := by
            rw [htold, hlog, List.append_assoc, List.append_assoc]
          have hmoreWritten (more : List (ChunkEvent UInt8)) :
              (written (new ++ (told ++ more))).flatten
                = rest.take (nextSize rest s.1) ++ (written more).flatten := by
            rw [written_append, written_append, hwritten, htoldWritten]
            simp
          rcases ih (sent + nextSize rest s.1) (rest.drop (nextSize rest s.1))
              hcancelled (hconfig ▸ hsize) (by omega) with
            ⟨t, more, hloop, hlog', hkept'', hall, hnone⟩ |
            ⟨n, taken, code, t, more, hloop, hfails, hn, hlog', hkept'', hall, hacknowledged⟩
          · refine .inl ⟨t, new ++ (told ++ more), ?_, hlog'.trans (hmoreLog more),
              hkept''.trans hstanding, ?_, ?_⟩
            · rw [hstep, hloop, Nat.add_assoc, Nat.add_comm (nextSize rest s.1), hdrop]
            · rw [hmoreWritten, hall, List.take_append_drop]
            · intro n taken h
              cases h with
              | refused _ hwrite' => rw [hwrite] at hwrite'; cases hwrite'
              | unanswered _ hwrite' hresponse' =>
                rw [hwrite] at hwrite'
                cases hwrite'
                rw [hresponse] at hresponse'
                cases hresponse'
              | later _ hround' hreport' hrest' =>
                rw [hround] at hround'
                cases hround'
                rw [hreport] at hreport'
                cases hreport'
                exact hnone _ _ hrest'
          · rw [hconfig] at hn hall hacknowledged
            have hfull : nextSize rest s.1 = s.1.config.chunkSize := by
              have hlt : nextSize rest s.1 < rest.length := by omega
              rw [nextSize] at hlt ⊢
              omega
            refine .inr ⟨n + 1, taken, code, t, new ++ (told ++ more), by rw [hstep, hloop],
              .later hrest hround hreport hfails, ?_, hlog'.trans (hmoreLog more),
              hkept''.trans hstanding, ?_, ?_⟩
            · rw [Nat.succ_mul]
              omega
            · rw [hmoreWritten, hall, hfull, ← List.take_add]
              congr 1
              rw [Nat.add_right_comm, Nat.succ_mul, Nat.add_comm]
            · rw [acknowledged_append a.target fun hanswers => by
                rw [hcount hanswers, hwritten, List.length_singleton]]
              rw [acknowledged_append a.target fun _ => by rw [htoldCount, htoldWritten]; rfl,
                hwritten, htoldWritten, List.nil_append, List.singleton_append, List.flatten_cons,
                hacknowledged, hfull, ← List.take_add, Nat.succ_mul, Nat.add_comm]

/-! ### Sending and resuming -/

section Runs

variable {e e' : ChunkEngine σ} {a : Attempt σ} {data : ByteBuffer} {fuel n : Nat} {taken : Bool}

/-- A run that sent all the data. -/
structure Sent.Whole (run : Sent σ) (data : ByteBuffer) : Prop where
  ok : run.result.isOk = true
  bytes : run.bytes = data

/-- A run that failed at chunk `n` of the data. -/
structure Sent.FailedAt (run : Sent σ) (e : ChunkEngine σ) (a : Attempt σ) (data : ByteBuffer)
    (n : Nat) (taken : Bool) : Prop where
  refuses : e.Refuses a data n taken
  before : n * e.config.chunkSize < data.length
  failed : run.result.isOk = false
  kept : standing run.engine = standing e
  bytes : run.bytes = data.take ((n + taken.toNat) * e.config.chunkSize)
  acknowledged : run.acknowledged a = n * e.config.chunkSize

/-- A run of an engine that was not cancelled before. -/
theorem run_cases (a : Attempt σ) (he : e.cancelled = false) (hsize : 0 < e.config.chunkSize)
    (hfuel : data.length < fuel) :
    ((a.run (streamToTarget a.target fuel data) e).Whole data ∧
        ∀ n taken, ¬ e.Refuses a data n taken) ∨
      ∃ n taken, (a.run (streamToTarget a.target fuel data) e).FailedAt e a data n taken := by
  have hcheck (s : ChunkEngine σ × List (ChunkEvent UInt8)) (hs : s.1.cancelled = false) :
      (checkCancelled : Method σ Unit) s = (.ok (), s) := Program.failIf_eq_ok.mpr ⟨hs, rfl⟩
  rcases loop_cases a data.length 0 data (s := (e.facing a, [])) he hsize hfuel with
    ⟨t, new, hloop, hlog, hkept, hall, hnone⟩ |
    ⟨n, taken, code, t, new, hloop, hfails, hn, hlog, hkept, hall, hacknowledged⟩
  · have hrun : streamToTarget a.target fuel data (e.facing a, [])
        = (.ok (), (t.1.setResumeOffset (0 + data.length), t.2)) := by
      have ht : t.1.cancelled = false := (congrArg (fun g => g.2.1) hkept).trans he
      rw [streamToTarget, Program.run_bind_ok (hcheck _ he), Program.run_bind_ok hloop,
        Program.run_bind_ok (hcheck _ ht), Program.run_modify]
    rw [Attempt.run, hrun]
    refine .inl ⟨⟨rfl, ?_⟩, hnone⟩
    rw [Sent.bytes, hlog, List.nil_append, hall]
  · have hrun : streamToTarget a.target fuel data (e.facing a, []) = (.error code, t) := by
      rw [streamToTarget, Program.run_bind_ok (hcheck _ he), Program.run_bind_error hloop]
    rw [Attempt.run, hrun]
    refine .inr ⟨n, taken, hfails, hn, rfl, hkept, ?_, ?_⟩
    · rw [Sent.bytes, hlog, List.nil_append, hall]
      rfl
    · rw [Sent.acknowledged, hlog, List.nil_append, hacknowledged, List.length_take]
      exact Nat.min_eq_left (Nat.le_of_lt hn)

theorem resume_eq {offset : Nat} (h : offset < data.length) :
    e.resume a data offset
      = a.run (streamToTarget a.target (data.length + 1) (data.drop offset)) e := by
  have hall : (data.drop offset).take (min (data.length - offset) (data.length - offset))
      = data.drop offset := by
    have hlength : (data.drop offset).length = data.length - offset := List.length_drop
    rw [Nat.min_self, ← hlength, List.take_length]
  have hinside : ¬ offset ≥ data.length := by omega
  unfold resume streamToTargetPartial
  simp only [if_neg hinside, hall]

/-- The world of an engine that turns to a target makes no difference. -/
theorem run_congr (h : standing e' = standing e) (p : Method σ Unit) : a.run p e' = a.run p e := by
  rw [Attempt.run, Attempt.run, eq_facing h]

theorem Attempt.Healthy.not_refuses (h : a.Healthy) : ¬ e.Refuses a data n taken := by
  have hwrite (chunk : ByteBuffer) (s : ChunkEngine σ × List (ChunkEvent UInt8)) :
      writeRetrying a.target chunk s = (.ok (), (write a.target chunk s).2) :=
    Program.retryOnce_ok (Prod.ext (h.1 chunk s.1.world) rfl)
  suffices hall : ∀ {total sent rest s n taken},
      ¬ FailsAt a.target total sent rest s n taken from hall
  intro total sent rest s n taken hfails
  induction hfails with
  | refused _ hrefused =>
    rw [hwrite] at hrefused
    cases hrefused
  | @unanswered sent rest s s₁ code t _ _ hresponse =>
    obtain ⟨hanswers, -⟩ := response_error hresponse
    obtain ⟨f, hf⟩ := Option.isSome_iff_exists.mp hanswers
    have hok : (response a.target s₁).1 = .ok () := by
      rw [response_some hf]
      exact h.2 f hf s₁.1.world
    rw [hresponse] at hok
    cases hok
  | later _ _ _ _ ih => exact ih

/-- No run acknowledges more than it wrote. -/
theorem Sent.acknowledged_le (run : Sent σ) (a : Attempt σ) :
    run.acknowledged a ≤ run.bytes.length := by
  unfold Sent.acknowledged Sent.bytes ChunkEngine.acknowledged
  by_cases hanswers : a.target.responseFn.isSome = true
  · rw [if_pos hanswers]
    conv => rhs; rw [← List.take_append_drop (run.log.count (.answered true)) (written run.log)]
    rw [List.flatten_append, List.length_append]
    exact Nat.le_add_right _ _
  · simp only [if_neg hanswers, Nat.le_refl]

end Runs

/-- A healthy target in a given world. -/
def Attempt.healthy (world : σ) : Attempt σ where
  target := ⟨fun _ w => (.ok (), w), fun _ w => (.ok [], w), none, none, fun _ => []⟩
  world := world
  unasked _ := rfl

theorem Attempt.healthy_healthy (world : σ) : (Attempt.healthy world).Healthy :=
  ⟨fun _ _ => rfl, fun _ hf => by cases hf⟩

/-- What is resumed in the end has not written more than it resumes from. -/
theorem ResumesFrom.before_le {data : ByteBuffer} {as : List (Attempt σ)} {e : ChunkEngine σ}
    {k : Nat} {before : ByteBuffer} (world : σ) (h : ResumesFrom data as e k before) :
    before.length ≤ k := by
  have hwhole {bytes : ByteBuffer} (hbytes : bytes = data.drop k) (hall : before ++ bytes = data) :
      before.length ≤ k := by
    have hlength := congrArg List.length hall
    rw [hbytes, List.length_append, List.length_drop] at hlength
    omega
  induction as generalizing e k before with
  | nil =>
    obtain ⟨-, hbytes, hall⟩ := h (.healthy world) (Attempt.healthy_healthy world)
    exact hwhole hbytes hall
  | cons a as ih =>
    rw [ResumesFrom] at h
    by_cases hok : (e.resume a data k).result.isOk = true
    · simp only [hok, if_true] at h
      exact hwhole h.1 h.2
    · simp only [hok] at h
      have hle := ih h.2 fun hbytes hall => by
        have hlength := congrArg List.length hall
        rw [hbytes, List.length_append, List.length_drop] at hlength
        omega
      have hmore := (e.resume a data k).acknowledged_le a
      rw [List.length_append] at hle
      omega

/-- A cancelled engine sends nothing. -/
theorem run_cancelled {e : ChunkEngine σ} (he : e.cancelled = true) (a : Attempt σ) (fuel : Nat)
    (data : ByteBuffer) :
    a.run (streamToTarget a.target fuel data) e = ⟨.error .cancelled, e.facing a, []⟩ := by
  have hcheck : (checkCancelled : Method σ Unit) (e.facing a, [])
      = (.error .cancelled, (e.facing a, [])) := by
    have hfacing : (e.facing a).cancelled = true := he
    rw [checkCancelled, Program.run_failIf, hfacing]
    rfl
  rw [Attempt.run, streamToTarget, Program.run_bind_error hcheck]

theorem not_resumesFrom_of_cancelled {data : ByteBuffer} {as : List (Attempt σ)}
    {e : ChunkEngine σ} {k : Nat} {before : ByteBuffer} (world : σ) (he : e.cancelled = true) :
    ¬ ResumesFrom data as e k before := by
  have hfails {e : ChunkEngine σ} (he : e.cancelled = true) (a : Attempt σ) (k : Nat) :
      (e.resume a data k).result.isOk = false ∧ (e.resume a data k).engine.cancelled = true := by
    by_cases hoffset : k < data.length
    · rw [resume_eq hoffset, run_cancelled he]
      exact ⟨rfl, he⟩
    · rw [resume, streamToTargetPartial, if_pos (by omega)]
      exact ⟨rfl, he⟩
  induction as generalizing e k before with
  | nil =>
    intro h
    obtain ⟨hok, -, -⟩ := h (.healthy world) (Attempt.healthy_healthy world)
    rw [(hfails he _ k).1] at hok
    cases hok
  | cons a as ih =>
    intro h
    rw [ResumesFrom] at h
    simp only [(hfails he a k).1, Bool.false_eq_true, if_false] at h
    exact ih (hfails he a k).2 h.2

/-- What is left after the engine's offset is sent once exactly when the targets that
refuse something refuse it at once. -/
theorem resumesFrom_iff {data : ByteBuffer} {as : List (Attempt σ)} {e e' : ChunkEngine σ}
    (world : σ) (he : e.cancelled = false) (hsize : 0 < e.config.chunkSize)
    (hoffset : e.resumeOffset < data.length) (hsame : standing e' = standing e) :
    ResumesFrom data as e' e.resumeOffset (data.take e.resumeOffset) ↔
      RefuseAtOnce e data e.resumeOffset as := by
  have hrun (e' : ChunkEngine σ) (hsame : standing e' = standing e) (a : Attempt σ) :
      e'.resume a data e.resumeOffset
        = a.run (streamToTarget a.target (data.length + 1) (data.drop e.resumeOffset)) e := by
    rw [resume_eq hoffset, run_congr hsame]
  have hlength : (data.drop e.resumeOffset).length < data.length + 1 := by
    rw [List.length_drop]
    omega
  have hcases (a : Attempt σ) := run_cases a he hsize hlength
  induction as generalizing e' with
  | nil =>
    refine iff_of_true (fun a ha => ?_) trivial
    rw [hrun e' hsame]
    rcases hcases a with ⟨⟨hok, hbytes⟩, -⟩ | ⟨n, taken, hfailed⟩
    · exact ⟨hok, hbytes, by rw [hbytes, List.take_append_drop]⟩
    · exact absurd hfailed.refuses ha.not_refuses
  | cons a as ih =>
    rw [ResumesFrom, RefuseAtOnce, hrun e' hsame]
    rcases hcases a with ⟨⟨hok, hbytes⟩, hnone⟩ | ⟨n, taken, hfailed⟩
    · simp only [hok, if_true]
      refine iff_of_true ⟨hbytes, by rw [hbytes, List.take_append_drop]⟩ ?_
      intro n taken hrefuses
      exact absurd hrefuses (hnone n taken)
    · simp only [hfailed.failed, Bool.false_eq_true, if_false]
      have hkept : (a.run (streamToTarget a.target (data.length + 1)
          (data.drop e.resumeOffset)) e).engine.resumeOffset = e.resumeOffset :=
        congrArg (fun g => g.2.2) hfailed.kept
      rw [hkept, hfailed.acknowledged, hfailed.bytes]
      constructor
      · rintro ⟨hk, hrest⟩ n' taken' hrefuses
        obtain ⟨rfl, rfl⟩ := hrefuses.unique hfailed.refuses
        obtain rfl : n' = 0 := by
          rcases Nat.eq_zero_or_pos n' with hzero | hpos
          · exact hzero
          · have hmore := Nat.mul_pos hpos hsize
            omega
        rw [Nat.zero_mul, Nat.add_zero, Nat.zero_add] at hrest
        have hle := hrest.before_le world
        obtain rfl : taken' = false := by
          cases taken' with
          | false => rfl
          | true =>
            rw [Bool.toNat_true, Nat.one_mul, List.length_append, List.length_take,
              List.length_take, List.length_drop] at hle
            omega
        rw [Bool.toNat_false, Nat.zero_mul, List.take_zero, List.append_nil] at hrest
        exact ⟨rfl, rfl, (ih hfailed.kept).mp hrest⟩
      · intro h
        obtain ⟨rfl, rfl, hatOnce⟩ := h n taken hfailed.refuses
        rw [Nat.zero_mul, Nat.add_zero, Nat.zero_add, Bool.toNat_false, Nat.zero_mul,
          List.take_zero, List.append_nil]
        exact ⟨rfl, (ih hfailed.kept).mpr hatOnce⟩

/-! ## Resuming once -/

/-- The engine was not cancelled, and a target that refuses something refuses to take the
chunk that follows the offset the engine remembers; so do the ones after it. -/
def StopsAtOffset (data : ByteBuffer) (a : Attempt σ) (as : List (Attempt σ))
    (e : ChunkEngine σ) : Prop :=
  e.cancelled = false ∧ ∀ n taken, e.Refuses a data n taken →
    n * e.config.chunkSize = e.resumeOffset ∧ taken = false ∧
      RefuseAtOnce e data e.resumeOffset as

theorem resumesOnce_iff {data : ByteBuffer} {a : Attempt σ} {as : List (Attempt σ)}
    {e : ChunkEngine σ} (hsize : 0 < e.config.chunkSize) :
    ResumesOnce data a as e ↔ StopsAtOffset data a as e := by
  rw [ResumesOnce, StopsAtOffset, send]
  cases he : e.cancelled with
  | true =>
    rw [run_cancelled he]
    refine iff_of_false ?_ (by rintro ⟨⟨⟩, -⟩)
    intro h
    exact not_resumesFrom_of_cancelled (e := e.facing a) a.world he (h rfl).2
  | false =>
    rcases run_cases a he hsize (Nat.lt_succ_self data.length) with
      ⟨⟨hok, -⟩, hnone⟩ | ⟨n, taken, hfailed⟩
    · simp only [hok, Bool.true_eq_false, false_implies, true_and, true_iff]
      intro n taken hrefuses
      exact absurd hrefuses (hnone n taken)
    · have hkept : (a.run (streamToTarget a.target (data.length + 1) data) e).engine.resumeOffset
          = e.resumeOffset := congrArg (fun g => g.2.2) hfailed.kept
      simp only [hfailed.failed, true_implies, true_and, hkept, hfailed.acknowledged,
        hfailed.bytes]
      constructor
      · rintro ⟨hk, hrest⟩ n' taken' hrefuses
        obtain ⟨rfl, rfl⟩ := hrefuses.unique hfailed.refuses
        have hle := hrest.before_le a.world
        have hlt := hfailed.before
        obtain rfl : taken' = false := by
          cases taken' with
          | false => rfl
          | true =>
            rw [Bool.toNat_true, Nat.succ_mul, List.length_take] at hle
            omega
        have hn : (n' + false.toNat) * e.config.chunkSize = e.resumeOffset := hk.symm
        rw [hn, ← hk] at hrest
        exact ⟨hk.symm, rfl, (resumesFrom_iff a.world he hsize (hk ▸ hlt) hfailed.kept).mp hrest⟩
      · intro h
        obtain ⟨hk, rfl, hatOnce⟩ := h n taken hfailed.refuses
        have hn : (n + false.toNat) * e.config.chunkSize = e.resumeOffset := hk
        rw [hn, hk]
        refine ⟨rfl, (resumesFrom_iff a.world he hsize ?_ hfailed.kept).mpr hatOnce⟩
        rw [← hk]
        exact hfailed.before

/-- A target that takes one chunk and no more. -/
def Attempt.oneChunk : Attempt Nat where
  target := ⟨fun _ n => if n = 0 then (.ok (), n + 1) else (.error .transportTimeout, n + 1),
    fun _ n => (.ok [], n), none, none, fun _ => []⟩
  world := 0
  unasked _ := rfl

theorem resumesOnce_iff_fourBytes :
    ResumesOnce [1, 2, 3, 4] .oneChunk [] ⟨0, { chunkSize := 2 }, false, 0⟩ ↔
      StopsAtOffset [1, 2, 3, 4] .oneChunk [] ⟨0, { chunkSize := 2 }, false, 0⟩ :=
  resumesOnce_iff Nat.zero_lt_two

/-- Two of four bytes have been acknowledged, and the engine resumes at none. -/
theorem oneChunk_not_resumesOnce :
    ¬ ResumesOnce [1, 2, 3, 4] .oneChunk [] ⟨0, { chunkSize := 2 }, false, 0⟩ := by
  intro h
  have hoffset := (h (by decide)).1
  exact absurd hoffset (by decide)

end ChunkEngine

end MBootCore
