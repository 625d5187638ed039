import MBootCore.Support.Traced

/-!
# ChunkedTransfer — a buffer moved in chunks

Two loops. `ChunkSender.loop` cuts a buffer into chunks and hands each to a round
that sends it; `ChunkFetcher.loop` asks for chunks until a number of bytes has come.
What a round does is a parameter. Both work on a state that says when to stop, and
log what they do, so that what was sent and what was reported can be read off the
log of a run.

The loops recurse on fuel; `Program.Halts` says that they need only so much of it.
-/

namespace MBootCore

inductive ChunkEvent (α : Type) where
  | wrote (chunk : List α) (ok : Bool)
  | answered (ok : Bool)
  | received (asked : Nat) (ok : Bool)
  | reported (transferred total : Nat)
  deriving DecidableEq, Repr

namespace ChunkEvent

variable {α : Type}

/-- The chunks whose write succeeded, in order. -/
def written : List (ChunkEvent α) → List (List α)
  | [] => []
  | wrote chunk true :: events => chunk :: written events
  | _ :: events => written events

/-- The progress reports, in order: how much of how much. -/
def reports : List (ChunkEvent α) → List (Nat × Nat)
  | [] => []
  | reported transferred total :: events => (transferred, total) :: reports events
  | _ :: events => reports events

@[simp] theorem written_nil : written ([] : List (ChunkEvent α)) = [] := rfl

@[simp] theorem reports_nil : reports ([] : List (ChunkEvent α)) = [] := rfl

@[simp] theorem written_append (events more : List (ChunkEvent α)) :
    written (events ++ more) = written events ++ written more := by
  fun_induction written events with
  | case1 => rfl
  | case2 chunk events ih => simp [written, ih]
  | case3 event events hevent ih => simp [written, ih]

@[simp] theorem reports_append (events more : List (ChunkEvent α)) :
    reports (events ++ more) = reports events ++ reports more := by
  fun_induction reports events with
  | case1 => rfl
  | case2 transferred total events ih => simp [reports, ih]
  | case3 event events hevent ih => simp [reports, ih]

end ChunkEvent

open ChunkEvent

/-! ## Sending -/

/-- The parts of a sending loop: when it stops, how long a chunk may be, how one is
sent and what is told after it. -/
structure ChunkSender (S α ε : Type) where
  stopped : S → Bool
  chunkSize : S → Nat
  round : List α → Traced S (ChunkEvent α) ε Unit
  report : Nat → Nat → Traced S (ChunkEvent α) ε Unit
  out : ε

namespace ChunkSender

variable {S α ε : Type} (k : ChunkSender S α ε)

/-- The loop over the chunks; `rest` is what is left after the first `sent` elements. -/
def loop (total : Nat) : Nat → Nat → List α → Traced S (ChunkEvent α) ε Nat
  | 0, _, _ => Program.fail k.out
  | fuel + 1, sent, rest => do
    let isStopped ← Program.gets fun s => k.stopped s.1
    if rest = [] ∨ isStopped then pure sent
    else
      let chunkSize ← Program.gets fun s => min rest.length (k.chunkSize s.1)
      k.round (rest.take chunkSize)
      k.report (sent + chunkSize) total
      loop total fuel (sent + chunkSize) (rest.drop chunkSize)

/-- The chunk was written at most once, and it was if nothing failed. -/
def WritesOnce (chunk : List α) (r : Except ε Unit) (new : List (ChunkEvent α)) : Prop :=
  reports new = [] ∧ (written new = [] ∨ written new = [chunk]) ∧
    (r.isOk = true → written new = [chunk])

/-- A round writes its chunk once, or fails; a report does not fail and writes nothing;
neither changes the length of a chunk. -/
structure Lawful : Prop where
  round_yields : ∀ chunk, Traced.Yields (WritesOnce chunk) (k.round chunk)
  report_yields : ∀ n total, Traced.Yields (fun r new => r.isOk = true ∧
    written new = [] ∧ (reports new = [] ∨ reports new = [(n, total)])) (k.report n total)
  round_size : ∀ chunk, Program.Preserves (fun s => k.chunkSize s.1) (k.round chunk)
  report_size : ∀ n total, Program.Preserves (fun s => k.chunkSize s.1) (k.report n total)

variable {k}

/-- Nothing but writes of the chunk, of which one succeeded if nothing failed. -/
def OnlyWrites (chunk : List α) (r : Except ε Unit) (new : List (ChunkEvent α)) : Prop :=
  (∀ event ∈ new, ∃ ok, event = .wrote chunk ok) ∧ written new = if r.isOk then [chunk] else []

theorem reports_of_writes {chunk : List α} {new : List (ChunkEvent α)}
    (h : ∀ event ∈ new, ∃ ok, event = .wrote chunk ok) : reports new = [] := by
  induction new with
  | nil => rfl
  | cons event new ih =>
    rw [List.forall_mem_cons] at h
    obtain ⟨⟨ok, rfl⟩, hnew⟩ := h
    exact ih hnew

theorem OnlyWrites.writesOnce {chunk : List α} {r : Except ε Unit} {new : List (ChunkEvent α)}
    (h : OnlyWrites chunk r new) : WritesOnce chunk r new := by
  obtain ⟨hevents, hwritten⟩ := h
  refine ⟨reports_of_writes hevents, ?_, fun hok => by rw [hwritten, hok, if_pos rfl]⟩
  cases hok : r.isOk with
  | true => exact .inr (by rw [hwritten, hok, if_pos rfl])
  | false =>
    left
    rw [hwritten, hok]
    rfl

theorem yields_retryOnce {again : S × List (ChunkEvent α) → Prop} [DecidablePred again]
    {chunk : List α} {p : Traced S (ChunkEvent α) ε Unit}
    (hp : Traced.Yields (fun r new => new = [.wrote chunk r.isOk]) p) :
    Traced.Yields (OnlyWrites chunk) (Program.retryOnce again p) := by
  have hwritten (r : Except ε Unit) :
      written [.wrote chunk r.isOk] = if r.isOk then [chunk] else [] := by
    cases r <;> rfl
  refine Traced.Yields.bind (Traced.Yields.attempt hp) (by rintro e new ⟨outcome, ⟨⟩, -⟩) ?_
  rintro r new ⟨outcome, hr, rfl⟩
  obtain rfl := Except.ok.inj hr
  cases r with
  | ok => exact Traced.Yields.pure ⟨by simp, rfl⟩
  | error e =>
    refine Traced.Yields.bind (Q := fun _ new => new = []) (fun s => ⟨[], by simp, rfl⟩)
      (by rintro e' new rfl; exact ⟨by simp, rfl⟩) ?_
    rintro retries new rfl
    by_cases hretries : retries = true
    · simp only [if_pos hretries]
      refine Traced.Yields.mono ?_ hp
      rintro r new rfl
      exact ⟨by simp, hwritten r⟩
    · simp only [if_neg hretries]
      exact Traced.Yields.fail ⟨by simp, rfl⟩

/-- A write, and after it an exchange that writes and reports nothing. -/
theorem WritesOnce.bind {chunk : List α} {p : Traced S (ChunkEvent α) ε Unit}
    {q : Unit → Traced S (ChunkEvent α) ε Unit} (hp : Traced.Yields (WritesOnce chunk) p)
    (hq : Traced.Yields (fun _ new => written new = [] ∧ reports new = []) (q ())) :
    Traced.Yields (WritesOnce chunk) (p >>= q) := by
  refine Traced.Yields.bind hp ?_ ?_
  · rintro e new ⟨hreports, hwritten, -⟩
    exact ⟨hreports, hwritten, by rintro ⟨⟩⟩
  · rintro ⟨⟩ new ⟨hreports, -, hok⟩
    refine Traced.Yields.mono ?_ hq
    rintro r more ⟨hmore, hmoreReports⟩
    have hall : written (new ++ more) = [chunk] := by
      rw [written_append, hok rfl, hmore, List.append_nil]
    refine ⟨?_, .inr hall, fun _ => hall⟩
    rw [reports_append, hreports, hmoreReports, List.append_nil]

/-- One pass through the loop, at a state that does not stop it. -/
theorem loop_run {total fuel sent : Nat} {rest : List α} {s : S × List (ChunkEvent α)}
    (hrest : rest ≠ []) (hs : k.stopped s.1 = false) :
    k.loop total (fuel + 1) sent rest s = (do
      k.round (rest.take (min rest.length (k.chunkSize s.1)))
      k.report (sent + min rest.length (k.chunkSize s.1)) total
      k.loop total fuel (sent + min rest.length (k.chunkSize s.1))
        (rest.drop (min rest.length (k.chunkSize s.1)))) s := by
  rw [loop, Program.run_bind_ok (Program.run_gets _ s), hs, if_neg (by simp [hrest]),
    Program.run_bind_ok (Program.run_gets _ s)]

/-- The loop has nothing to do. -/
theorem loop_done {total fuel sent : Nat} {rest : List α} {s : S × List (ChunkEvent α)}
    (h : rest = [] ∨ k.stopped s.1 = true) :
    k.loop total (fuel + 1) sent rest s = (.ok sent, s) := by
  rw [loop, Program.run_bind_ok (Program.run_gets _ s), if_pos h, Program.run_pure]

/-! ### What is delivered -/

/-- What a log says of the data `rest` that follows the first `sent` elements: the
written chunks are short enough and begin it, and the reports rise within it. -/
structure Delivery (size total sent : Nat) (rest : List α) (new : List (ChunkEvent α)) :
    Prop where
  chunks : ∀ chunk ∈ written new, chunk ≠ [] ∧ chunk.length ≤ size
  inOrder : (written new).flatten <+: rest
  rising : (reports new).Pairwise fun r r' => r.1 ≤ r'.1
  within : ∀ r ∈ reports new, sent ≤ r.1 ∧ r.1 ≤ sent + rest.length ∧ r.2 = total

theorem Delivery.nil (size total sent : Nat) (rest : List α) :
    Delivery size total sent rest [] where
  chunks := by simp
  inOrder := List.nil_prefix
  rising := List.Pairwise.nil
  within := by simp

/-- A chunk that was written and nothing more. -/
theorem Delivery.chunk {size total sent : Nat} {rest chunk : List α}
    {new : List (ChunkEvent α)} (hchunk : chunk ≠ [] ∧ chunk.length ≤ size)
    (hrest : chunk <+: rest) (hwritten : written new = [] ∨ written new = [chunk])
    (hreports : reports new = []) : Delivery size total sent rest new := by
  have hprefix : (written new).flatten <+: rest := by
    rcases hwritten with hwritten | hwritten
    · rw [hwritten]
      exact List.nil_prefix
    · rw [hwritten, List.flatten_singleton]
      exact hrest
  refine ⟨?_, hprefix, by rw [hreports]; exact List.Pairwise.nil, by simp [hreports]⟩
  intro c hc
  rcases hwritten with hwritten | hwritten <;> rw [hwritten] at hc
  · cases hc
  · rw [List.mem_singleton.mp hc]
    exact hchunk

/-- A chunk of `n` elements, its report, and the delivery of what follows it. -/
theorem Delivery.cons {size total sent n : Nat} {rest : List α}
    {new report more : List (ChunkEvent α)} (hn : 0 < n ∧ n ≤ size ∧ n ≤ rest.length)
    (hwritten : written new = [rest.take n]) (hreports : reports new = [])
    (hreportWritten : written report = [])
    (hreport : reports report = [] ∨ reports report = [(sent + n, total)])
    (hmore : Delivery size total (sent + n) (rest.drop n) more) :
    Delivery size total sent rest (new ++ (report ++ more)) := by
  have hlength : (rest.take n).length = n := by
    rw [List.length_take]
    omega
  have hdrop : (rest.drop n).length + n = rest.length := by
    rw [List.length_drop]
    omega
  have hall : written (new ++ (report ++ more)) = rest.take n :: written more := by
    rw [written_append, written_append, hwritten, hreportWritten]
    rfl
  have hallReports : reports (new ++ (report ++ more)) = reports report ++ reports more := by
    rw [reports_append, reports_append, hreports, List.nil_append]
  have hle : ∀ r ∈ reports report, r = (sent + n, total) := by
    intro r hr
    rcases hreport with hreport | hreport <;> rw [hreport] at hr
    · cases hr
    · exact List.mem_singleton.mp hr
  constructor
  · rw [hall, List.forall_mem_cons]
    refine ⟨⟨?_, by omega⟩, hmore.chunks⟩
    exact List.length_pos_iff.mp (by omega)
  · rw [hall, List.flatten_cons]
    conv => rhs; rw [← List.take_append_drop n rest]
    exact (List.prefix_append_right_inj _).mpr hmore.inOrder
  · rw [hallReports, List.pairwise_append]
    refine ⟨?_, hmore.rising, ?_⟩
    · rcases hreport with hreport | hreport <;> rw [hreport]
      · exact List.Pairwise.nil
      · exact List.pairwise_singleton _ _
    · intro r hr r' hr'
      rw [hle r hr]
      exact (hmore.within r' hr').1
  · rw [hallReports]
    intro r hr
    rcases List.mem_append.mp hr with hr | hr
    · rw [hle r hr]
      exact ⟨Nat.le_add_right _ _, by simp only; omega, rfl⟩
    · obtain ⟨hlow, hhigh, htotal⟩ := hmore.within r hr
      exact ⟨by omega, by omega, htotal⟩

/-- What a run of the loop adds to the log, from a state with chunks of some length. -/
theorem loop_delivers (hk : k.Lawful) (total fuel sent : Nat) (rest : List α)
    (s : S × List (ChunkEvent α)) (hsize : 0 < k.chunkSize s.1) :
    ∃ new, (k.loop total fuel sent rest s).2.2 = s.2 ++ new ∧
      Delivery (k.chunkSize s.1) total sent rest new ∧
      ∀ n, (k.loop total fuel sent rest s).1 = .ok n →
        k.stopped (k.loop total fuel sent rest s).2.1 = false →
        n = sent + rest.length ∧ (written new).flatten = rest := by
  induction fuel generalizing sent rest s with
  | zero => exact ⟨[], (List.append_nil _).symm, Delivery.nil _ _ _ _, by rintro n ⟨⟩⟩
  | succ fuel ih =>
    by_cases hend : rest = [] ∨ k.stopped s.1 = true
    · rw [loop_done hend]
      refine ⟨[], (List.append_nil _).symm, Delivery.nil _ _ _ _, ?_⟩
      rintro n hn hrunning
      rcases hend with rfl | hstopped
      · exact ⟨(Except.ok.inj hn).symm, rfl⟩
      · rw [hstopped] at hrunning
        cases hrunning
    · obtain ⟨hrest, hs⟩ := not_or.mp hend
      have hlength : 0 < rest.length := List.length_pos_iff.mpr hrest
      rw [loop_run hrest (by simpa using hs)]
      -- `n` elements go into the chunk of this pass
      have hn : 0 < min rest.length (k.chunkSize s.1) ∧
          min rest.length (k.chunkSize s.1) ≤ k.chunkSize s.1 ∧
          min rest.length (k.chunkSize s.1) ≤ rest.length := by omega
      generalize min rest.length (k.chunkSize s.1) = n at hn
      have hchunk : rest.take n ≠ [] ∧ (rest.take n).length ≤ k.chunkSize s.1 := by
        have htake : (rest.take n).length = n := by
          rw [List.length_take]
          omega
        exact ⟨List.length_pos_iff.mp (by omega), by omega⟩
      obtain ⟨new, hlog, hreports, hwritten, hok⟩ := hk.round_yields (rest.take n) s
      have hround := hk.round_size (rest.take n) s
      rcases hrun : k.round (rest.take n) s with ⟨e | ⟨⟩, s₁⟩
      · rw [Program.run_bind_error hrun]
        rw [hrun] at hlog
        exact ⟨new, hlog, Delivery.chunk hchunk (List.take_prefix n rest) hwritten hreports,
          by rintro m ⟨⟩⟩
      · rw [Program.run_bind_ok hrun]
        rw [hrun] at hlog hround hok
        obtain ⟨told, htold, hgood, htoldWritten, htoldReports⟩ :=
          hk.report_yields (sent + n) total s₁
        have hreport := hk.report_size (sent + n) total s₁
        rcases hrun' : k.report (sent + n) total s₁ with ⟨e | ⟨⟩, s₂⟩
        · rw [hrun'] at hgood
          cases hgood
        · rw [Program.run_bind_ok hrun']
          rw [hrun'] at htold hreport
          have hsame : k.chunkSize s₂.1 = k.chunkSize s.1 := hreport.trans hround
          obtain ⟨more, hmoreLog, hmore, hdone⟩ := ih (sent + n) (rest.drop n) s₂ (hsame ▸ hsize)
          refine ⟨new ++ (told ++ more), ?_, ?_, ?_⟩
          · have hlog : s₁.2 = s.2 ++ new := hlog
            have htold : s₂.2 = s₁.2 ++ told := htold
            rw [hmoreLog, htold, hlog, List.append_assoc, List.append_assoc]
          · exact Delivery.cons hn (hok rfl) hreports htoldWritten htoldReports (hsame ▸ hmore)
          · intro m hm hrunning
            obtain ⟨rfl, hflatten⟩ := hdone m hm hrunning
            constructor
            · rw [List.length_drop]
              omega
            · simp only [written_append, hok rfl, htoldWritten, List.nil_append,
                List.flatten_append, List.flatten_singleton, hflatten, List.take_append_drop]

/-! ### Termination -/

/-- A loop whose chunks are empty is stopped or refused after some of them. -/
inductive GivesUp (k : ChunkSender S α ε) (sent total : Nat) : S × List (ChunkEvent α) → Prop
  | stopped {s} : k.stopped s.1 = true → GivesUp k sent total s
  | refused {s t e} : k.round [] s = (.error e, t) → GivesUp k sent total s
  | again {s s₁ s₂} : k.round [] s = (.ok (), s₁) → k.report sent total s₁ = (.ok (), s₂) →
      GivesUp k sent total s₂ → GivesUp k sent total s

/-- A pass of a loop whose chunks are empty. -/
theorem loop_run_zero {total fuel sent : Nat} {rest : List α} {s : S × List (ChunkEvent α)}
    (hrest : rest ≠ []) (hs : k.stopped s.1 = false) (hzero : k.chunkSize s.1 = 0) :
    k.loop total (fuel + 1) sent rest s = (do
      k.round []
      k.report sent total
      k.loop total fuel sent rest) s := by
  rw [loop_run hrest hs, hzero, Nat.min_zero, List.take_zero, List.drop_zero, Nat.add_zero]

/-- Chunks of some length use up the data, one pass for each element at most. -/
theorem loop_fuel (hk : k.Lawful) {total fuel fuel' sent : Nat} {rest : List α}
    {s : S × List (ChunkEvent α)} (hsize : 0 < k.chunkSize s.1) (hfuel : rest.length < fuel)
    (hfuel' : rest.length < fuel') :
    k.loop total fuel sent rest s = k.loop total fuel' sent rest s := by
  induction fuel generalizing fuel' sent rest s with
  | zero => omega
  | succ fuel ih =>
    obtain ⟨fuel', rfl⟩ : ∃ n, fuel' = n + 1 := ⟨fuel' - 1, by omega⟩
    by_cases hend : rest = [] ∨ k.stopped s.1 = true
    · rw [loop_done hend, loop_done hend]
    · obtain ⟨hrest, hs⟩ := not_or.mp hend
      have hlength : 0 < rest.length := List.length_pos_iff.mpr hrest
      rw [loop_run hrest (by simpa using hs), loop_run hrest (by simpa using hs)]
      have hshorter : (rest.drop (min rest.length (k.chunkSize s.1))).length < rest.length := by
        rw [List.length_drop]
        omega
      have hround := hk.round_size (rest.take (min rest.length (k.chunkSize s.1))) s
      rcases hrun : k.round (rest.take (min rest.length (k.chunkSize s.1))) s with ⟨e | ⟨⟩, s₁⟩
      · rw [Program.run_bind_error hrun, Program.run_bind_error hrun]
      · rw [Program.run_bind_ok hrun, Program.run_bind_ok hrun]
        rw [hrun] at hround
        have hreport := hk.report_size (sent + min rest.length (k.chunkSize s.1)) total s₁
        rcases hrun' : k.report (sent + min rest.length (k.chunkSize s.1)) total s₁ with
          ⟨e | ⟨⟩, s₂⟩
        · rw [Program.run_bind_error hrun', Program.run_bind_error hrun']
        · rw [Program.run_bind_ok hrun', Program.run_bind_ok hrun']
          rw [hrun'] at hreport
          have hsame : k.chunkSize s₂.1 = k.chunkSize s.1 := hreport.trans hround
          exact ih (hsame ▸ hsize) (by omega) (by omega)

theorem GivesUp.halts (hk : k.Lawful) {total sent : Nat} {rest : List α}
    {s : S × List (ChunkEvent α)} (h : k.GivesUp sent total s) (hrest : rest ≠ [])
    (hzero : k.chunkSize s.1 = 0) :
    Program.Halts (fun fuel => k.loop total fuel sent rest) s := by
  induction h with
  | stopped hs => exact Program.Halts.of_done fun fuel => loop_done (.inr hs)
  | @refused s t e hround =>
    cases hs : k.stopped s.1 with
    | true => exact Program.Halts.of_done fun fuel => loop_done (.inr hs)
    | false =>
      refine Program.Halts.of_done (r := (.error e, t)) fun fuel => ?_
      rw [loop_run_zero hrest hs hzero, Program.run_bind_error hround]
  | @again s s₁ s₂ hround hreport _ ih =>
    cases hs : k.stopped s.1 with
    | true => exact Program.Halts.of_done fun fuel => loop_done (.inr hs)
    | false =>
      have hsize := hk.round_size [] s
      have hsize' := hk.report_size sent total s₁
      rw [hround] at hsize
      rw [hreport] at hsize'
      refine Program.Halts.of_step (fun fuel => ?_) (ih (hsize'.trans (hsize.trans hzero)))
      rw [loop_run_zero hrest hs hzero, Program.run_bind_ok hround, Program.run_bind_ok hreport]

/-- A loop whose chunks are empty, and which nothing stops, writes on and on. -/
theorem loop_grows (hk : k.Lawful) {total sent : Nat} {rest : List α}
    {s : S × List (ChunkEvent α)} (hrest : rest ≠ []) (hzero : k.chunkSize s.1 = 0)
    (h : ¬ k.GivesUp sent total s) (fuel : Nat) :
    s.2.length + fuel ≤ (k.loop total fuel sent rest s).2.2.length := by
  induction fuel generalizing s with
  | zero => exact Nat.le_refl _
  | succ fuel ih =>
    have hs : k.stopped s.1 = false := by
      cases hs : k.stopped s.1 with
      | true => exact absurd (GivesUp.stopped hs) h
      | false => rfl
    have hsize := hk.round_size [] s
    obtain ⟨new, hlog, -, -, hok⟩ := hk.round_yields [] s
    rw [loop_run_zero hrest hs hzero]
    rcases hround : k.round [] s with ⟨e | ⟨⟩, s₁⟩
    · exact absurd (GivesUp.refused hround) h
    · rw [Program.run_bind_ok hround]
      rw [hround] at hlog hsize hok
      have hsize' := hk.report_size sent total s₁
      obtain ⟨told, htold, hgood, -⟩ := hk.report_yields sent total s₁
      rcases hreport : k.report sent total s₁ with ⟨e | ⟨⟩, s₂⟩
      · rw [hreport] at hgood
        cases hgood
      · rw [Program.run_bind_ok hreport]
        rw [hreport] at htold hsize'
        have hmore := ih (s := s₂) (hsize'.trans (hsize.trans hzero)) fun hgives =>
          h (GivesUp.again hround hreport hgives)
        have hlog : s₁.2 = s.2 ++ new := hlog
        have htold : s₂.2 = s₁.2 ++ told := htold
        have hnew : new ≠ [] := by
          rintro rfl
          cases hok rfl
        have hlength := List.length_pos_iff.mpr hnew
        rw [htold, hlog, List.length_append, List.length_append] at hmore
        omega

/-- A transfer ends, whatever follows its loop, exactly when its chunks have some length
or it has nothing to send or it gives up. -/
theorem loop_halts_iff (hk : k.Lawful) {total sent : Nat} {rest : List α}
    {s : S × List (ChunkEvent α)} {β : Type} {q : Nat → Traced S (ChunkEvent α) ε β}
    (hq : ∀ n, Program.Preserves Prod.snd (q n)) :
    Program.Halts (fun fuel => k.loop total fuel sent rest >>= q) s ↔
      0 < k.chunkSize s.1 ∨ rest = [] ∨ k.GivesUp sent total s := by
  constructor
  · intro hhalts
    rcases Nat.eq_zero_or_pos (k.chunkSize s.1) with hzero | hpos
    · refine .inr (Classical.byContradiction fun h => ?_)
      obtain ⟨hrest, hgives⟩ := not_or.mp h
      refine Traced.not_halts_of_grows (fun fuel => ?_) hhalts
      have hgrows := loop_grows hk hrest hzero hgives fuel
      have hkept : ((k.loop total fuel sent rest >>= q) s).2.2
          = (k.loop total fuel sent rest s).2.2 := by
        rw [Program.run_bind]
        rcases k.loop total fuel sent rest s with ⟨e | n, t⟩
        · rfl
        · exact hq n t
      rw [hkept]
      exact Nat.le_trans (Nat.le_add_left _ _) hgrows
    · exact .inl hpos
  · rintro (hpos | rfl | hgives)
    · refine Program.Halts.bind ⟨rest.length + 1, fun m hm => ?_⟩ q
      exact loop_fuel hk hpos (by omega) (by omega)
    · exact Program.Halts.bind (Program.Halts.of_done fun fuel => loop_done (.inl rfl)) q
    · rcases Nat.eq_zero_or_pos (k.chunkSize s.1) with hzero | hpos
      · by_cases hrest : rest = []
        · subst hrest
          exact Program.Halts.bind (Program.Halts.of_done fun fuel => loop_done (.inl rfl)) q
        · exact Program.Halts.bind (hgives.halts hk hrest hzero) q
      · refine Program.Halts.bind ⟨rest.length + 1, fun m hm => ?_⟩ q
        exact loop_fuel hk hpos (by omega) (by omega)

/-- The same of a transfer that opens with `p`. -/
theorem opened_halts_iff (hk : k.Lawful) {total sent : Nat} {rest : List α}
    {s : S × List (ChunkEvent α)} {β : Type} {q : Nat → Traced S (ChunkEvent α) ε β}
    (hq : ∀ n, Program.Preserves Prod.snd (q n)) (p : Traced S (ChunkEvent α) ε Unit) :
    Program.Halts (fun fuel => p >>= fun _ => k.loop total fuel sent rest >>= q) s ↔
      ∀ t, p s = (.ok (), t) →
        0 < k.chunkSize t.1 ∨ rest = [] ∨ k.GivesUp sent total t := by
  rw [Program.Halts.bind_iff]
  constructor
  · intro h t hp
    exact (loop_halts_iff hk hq).mp (h () t hp)
  · rintro h ⟨⟩ t hp
    exact (loop_halts_iff hk hq).mpr (h t hp)

end ChunkSender

/-! ## Fetching -/

/-- A transfer fails with an error of its source, or with the exception of a vector that
is asked to hold more than it can. -/
inductive FetchFailure (ε : Type) where
  | returned (error : ε)
  | lengthError
  deriving DecidableEq, Repr

/-- The parts of a fetching loop. What has been fetched is taken from what is still
owed in words of `modulus` values, whatever was asked for, and is kept in a vector of
`capacity` elements at most. -/
structure ChunkFetcher (S α ε : Type) where
  stopped : S → Bool
  chunkSize : S → Nat
  fetch : Nat → Traced S (ChunkEvent α) ε (List α)
  report : Nat → Nat → Traced S (ChunkEvent α) ε Unit
  modulus : Nat
  capacity : Nat
  out : ε

namespace ChunkFetcher

variable {S α ε : Type} (k : ChunkFetcher S α ε)

/-- The subtraction of words. -/
def minus (remaining n : Nat) : Nat := (remaining + k.modulus - n % k.modulus) % k.modulus

/-- The vector is made to hold `n` elements, by `reserve` or by `insert`. -/
def hold (n : Nat) : Traced S (ChunkEvent α) (FetchFailure ε) Unit :=
  Program.failIf (fun _ => decide (k.capacity < n)) .lengthError

def loop (total : Nat) :
    Nat → Nat → List α → Traced S (ChunkEvent α) (FetchFailure ε) (List α)
  | 0, _, _ => Program.fail (.returned k.out)
  | fuel + 1, remaining, got => do
    let isStopped ← Program.gets fun s => k.stopped s.1
    if remaining = 0 ∨ isStopped then pure got
    else
      let chunkSize ← Program.gets fun s => min remaining (k.chunkSize s.1)
      let chunk ← Program.mapError .returned (k.fetch chunkSize)
      k.hold (got.length + chunk.length)
      Program.mapError .returned (k.report (got.length + chunk.length) total)
      loop total fuel (k.minus remaining chunk.length) (got ++ chunk)

/-- The whole transfer: it fails with `e` when its loop was stopped. -/
def fetchAll (e : ε) (total fuel : Nat) :
    Traced S (ChunkEvent α) (FetchFailure ε) (List α) := do
  k.hold total
  let data ← k.loop total fuel total []
  Program.failIf (fun s => k.stopped s.1) (.returned e)
  pure data

/-- Words hold the size of a vector; a fetch that succeeds has been logged; a report does
not fail. -/
structure Lawful : Prop where
  capacity_lt : k.capacity < k.modulus
  fetch_yields : ∀ n, Traced.Yields (fun r new => r.isOk = true → new ≠ []) (k.fetch n)
  report_yields : ∀ n total, Traced.Yields (fun r _ => r.isOk = true) (k.report n total)

variable {k}

theorem hold_ok {n : Nat} (h : n ≤ k.capacity) (s : S × List (ChunkEvent α)) :
    k.hold n s = (.ok (), s) := by
  rw [hold, Program.run_failIf, decide_eq_false (by omega)]
  rfl

theorem hold_error {n : Nat} (h : k.capacity < n) (s : S × List (ChunkEvent α)) :
    k.hold n s = (.error .lengthError, s) := by
  rw [hold, Program.run_failIf, decide_eq_true h]
  rfl

/-! ### One pass -/

section Pass

variable {total fuel remaining : Nat} {got chunk : List α} {s s₁ s₂ : S × List (ChunkEvent α)}

/-- The loop has nothing to do. -/
theorem loop_done (h : remaining = 0 ∨ k.stopped s.1 = true) :
    k.loop total (fuel + 1) remaining got s = (.ok got, s) := by
  rw [loop, Program.run_bind_ok (Program.run_gets _ s), if_pos h, Program.run_pure]

theorem loop_run (hremaining : remaining ≠ 0) (hs : k.stopped s.1 = false) :
    k.loop total (fuel + 1) remaining got s = (do
      let chunk ← Program.mapError FetchFailure.returned
        (k.fetch (min remaining (k.chunkSize s.1)))
      k.hold (got.length + chunk.length)
      Program.mapError .returned (k.report (got.length + chunk.length) total)
      k.loop total fuel (k.minus remaining chunk.length) (got ++ chunk)) s := by
  rw [loop, Program.run_bind_ok (Program.run_gets _ s), hs, if_neg (by simp [hremaining]),
    Program.run_bind_ok (Program.run_gets _ s)]

theorem loop_refused (hremaining : remaining ≠ 0) (hs : k.stopped s.1 = false) {e : ε}
    (hfetch : k.fetch (min remaining (k.chunkSize s.1)) s = (.error e, s₁)) :
    k.loop total (fuel + 1) remaining got s = (.error (.returned e), s₁) := by
  rw [loop_run hremaining hs, Program.run_bind_error (Program.mapError_error _ hfetch)]

theorem loop_overflows (hremaining : remaining ≠ 0) (hs : k.stopped s.1 = false)
    (hfetch : k.fetch (min remaining (k.chunkSize s.1)) s = (.ok chunk, s₁))
    (hchunk : k.capacity < got.length + chunk.length) :
    k.loop total (fuel + 1) remaining got s = (.error .lengthError, s₁) := by
  rw [loop_run hremaining hs, Program.run_bind_ok (Program.mapError_ok _ hfetch),
    Program.run_bind_error (hold_error hchunk s₁)]

theorem loop_next (hremaining : remaining ≠ 0) (hs : k.stopped s.1 = false)
    (hfetch : k.fetch (min remaining (k.chunkSize s.1)) s = (.ok chunk, s₁))
    (hchunk : got.length + chunk.length ≤ k.capacity)
    (hreport : k.report (got.length + chunk.length) total s₁ = (.ok (), s₂)) :
    k.loop total (fuel + 1) remaining got s
      = k.loop total fuel (k.minus remaining chunk.length) (got ++ chunk) s₂ := by
  rw [loop_run hremaining hs, Program.run_bind_ok (Program.mapError_ok _ hfetch),
    Program.run_bind_ok (hold_ok hchunk s₁),
    Program.run_bind_ok (Program.mapError_ok _ hreport)]

/-- A pass that is not stopped: the source refuses, or brings more than the vector holds,
or the loop goes on with what it brought. -/
theorem Lawful.loop_cases (hk : k.Lawful) (total remaining : Nat) (got : List α)
    (s : S × List (ChunkEvent α)) :
    (∃ e t, k.fetch (min remaining (k.chunkSize s.1)) s = (.error e, t)) ∨
      ∃ chunk s₁, k.fetch (min remaining (k.chunkSize s.1)) s = (.ok chunk, s₁) ∧
        s.2.length < s₁.2.length ∧
        (k.capacity < got.length + chunk.length ∨
          got.length + chunk.length ≤ k.capacity ∧
            ∃ s₂, k.report (got.length + chunk.length) total s₁ = (.ok (), s₂) ∧
              s₁.2.length ≤ s₂.2.length) := by
  obtain ⟨new, hlog, hnew⟩ := hk.fetch_yields (min remaining (k.chunkSize s.1)) s
  rcases hfetch : k.fetch (min remaining (k.chunkSize s.1)) s with ⟨e | chunk, s₁⟩
  · exact .inl ⟨e, s₁, rfl⟩
  rw [hfetch] at hlog hnew
  have hlog : s₁.2 = s.2 ++ new := hlog
  have hpos := List.length_pos_iff.mpr (hnew rfl)
  refine .inr ⟨chunk, s₁, rfl, by rw [hlog, List.length_append]; omega, ?_⟩
  rcases Nat.lt_or_ge k.capacity (got.length + chunk.length) with hlarge | hheld
  · exact .inl hlarge
  obtain ⟨told, htold, hgood⟩ := hk.report_yields (got.length + chunk.length) total s₁
  rcases hreport : k.report (got.length + chunk.length) total s₁ with ⟨e | ⟨⟩, s₂⟩
  · rw [hreport] at hgood
    cases hgood
  · rw [hreport] at htold
    have htold : s₂.2 = s₁.2 ++ told := htold
    exact .inr ⟨hheld, s₂, rfl, by rw [htold, List.length_append]; omega⟩

end Pass

/-! ### Words -/

theorem minus_zero {total : Nat} (h : total < k.modulus) : k.minus total 0 = total := by
  rw [minus, Nat.zero_mod, Nat.sub_zero, Nat.add_mod_right, Nat.mod_eq_of_lt h]

theorem cast_minus (hmodulus : 0 < k.modulus) (total n : Nat) :
    (k.minus total n : Int) = ((total : Int) - n) % k.modulus := by
  have hlt : n % k.modulus < k.modulus := Nat.mod_lt n hmodulus
  have hcast : ((total + k.modulus - n % k.modulus : Nat) : Int)
      = total + k.modulus - (n : Int) % k.modulus := by
    rw [Int.natCast_sub (by omega)]
    push_cast
    rfl
  rw [minus, Int.natCast_emod, hcast, Int.sub_emod, Int.emod_emod, ← Int.sub_emod,
    show (total : Int) + k.modulus - n = total - n + k.modulus by omega, Int.add_emod_right]

theorem minus_minus (hmodulus : 0 < k.modulus) (total a b : Nat) :
    k.minus (k.minus total a) b = k.minus total (a + b) := by
  have h : (k.minus (k.minus total a) b : Int) = k.minus total (a + b) := by
    rw [cast_minus hmodulus, cast_minus hmodulus, cast_minus hmodulus, Int.emod_sub_emod]
    push_cast
    rw [Int.sub_sub]
  exact Int.ofNat.inj h

theorem minus_self (total : Nat) (hmodulus : 0 < k.modulus) : k.minus total total = 0 := by
  have h : (k.minus total total : Int) = (0 : Nat) := by
    rw [cast_minus hmodulus, Int.sub_self, Int.zero_emod]
    rfl
  exact Int.ofNat.inj h

/-- Of numbers that are words only the same leaves nothing. -/
theorem eq_of_minus_eq_zero {total got : Nat} (htotal : total < k.modulus) (hgot : got < k.modulus)
    (h : k.minus total got = 0) : got = total := by
  rw [minus, Nat.mod_eq_of_lt hgot] at h
  rcases Nat.lt_or_ge (total + k.modulus - got) k.modulus with hless | hmore
  · rw [Nat.mod_eq_of_lt hless] at h
    omega
  · rw [Nat.mod_eq_sub_mod hmore, Nat.mod_eq_of_lt (by omega)] at h
    omega

/-! ### Termination -/

/-- The source, with `got` elements brought so far, is asked for what is owed of `total`,
a chunk at most at a time, until it has brought that many, or refuses, or the loop is
stopped, and never brings more than the vector holds. -/
inductive Settles (k : ChunkFetcher S α ε) (total : Nat) : Nat → S × List (ChunkEvent α) → Prop
  | complete {got s} : got = total → Settles k total got s
  | stopped {got s} : k.stopped s.1 = true → Settles k total got s
  | refused {got s t e} : k.minus total got ≠ 0 →
      k.fetch (min (k.minus total got) (k.chunkSize s.1)) s = (.error e, t) →
      Settles k total got s
  | brings {got s s₁ s₂ chunk} : k.minus total got ≠ 0 →
      k.fetch (min (k.minus total got) (k.chunkSize s.1)) s = (.ok chunk, s₁) →
      got + chunk.length ≤ k.capacity →
      k.report (got + chunk.length) total s₁ = (.ok (), s₂) →
      Settles k total (got + chunk.length) s₂ → Settles k total got s

/-- A program that ends, and not with the vector's exception. -/
def Returns {β : Type} (p : Nat → Traced S (ChunkEvent α) (FetchFailure ε) β)
    (s : S × List (ChunkEvent α)) : Prop :=
  Program.Halts p s ∧ ∀ fuel t, p fuel s ≠ (.error .lengthError, t)

theorem Returns.of_done {β : Type} {p : Nat → Traced S (ChunkEvent α) (FetchFailure ε) β}
    {s : S × List (ChunkEvent α)} {r : Except (FetchFailure ε) β × (S × List (ChunkEvent α))}
    (hzero : ∀ t, p 0 s ≠ (.error .lengthError, t)) (hr : ∀ t, r ≠ (.error .lengthError, t))
    (h : ∀ fuel, p (fuel + 1) s = r) : Returns p s := by
  refine ⟨Program.Halts.of_done h, fun fuel t => ?_⟩
  cases fuel with
  | zero => exact hzero t
  | succ fuel =>
    rw [h]
    exact hr t

theorem loop_zero_ne {total remaining : Nat} {got : List α} {s t : S × List (ChunkEvent α)} :
    k.loop total 0 remaining got s ≠ (.error .lengthError, t) := by
  rintro ⟨⟩

theorem Settles.returns {total n : Nat} {s : S × List (ChunkEvent α)} (hmodulus : 0 < k.modulus)
    (h : k.Settles total n s) (got : List α) (hgot : got.length = n) :
    Returns (fun fuel => k.loop total fuel (k.minus total got.length) got) s := by
  induction h generalizing got with
  | @complete n s hn =>
    have hzero : k.minus total got.length = 0 := by rw [hgot, hn, minus_self total hmodulus]
    exact Returns.of_done (fun _ => loop_zero_ne) (by rintro t ⟨⟩) fun fuel =>
      loop_done (.inl hzero)
  | @stopped n s hs =>
    exact Returns.of_done (fun _ => loop_zero_ne) (by rintro t ⟨⟩) fun fuel => loop_done (.inr hs)
  | @refused n s t e howed hfetch =>
    rw [← hgot] at howed hfetch
    cases hs : k.stopped s.1 with
    | true =>
      exact Returns.of_done (fun _ => loop_zero_ne) (by rintro t ⟨⟩) fun fuel => loop_done (.inr hs)
    | false =>
      exact Returns.of_done (fun _ => loop_zero_ne) (by rintro t ⟨⟩) fun fuel =>
        loop_refused howed hs hfetch
  | @brings n s s₁ s₂ chunk howed hfetch hheld hreport _ ih =>
    rw [← hgot] at howed hfetch hheld hreport
    cases hs : k.stopped s.1 with
    | true =>
      exact Returns.of_done (fun _ => loop_zero_ne) (by rintro t ⟨⟩) fun fuel => loop_done (.inr hs)
    | false =>
      have hrun (fuel : Nat) :
          k.loop total (fuel + 1) (k.minus total got.length) got s
            = k.loop total fuel (k.minus total (got ++ chunk).length) (got ++ chunk) s₂ := by
        rw [loop_next howed hs hfetch hheld hreport, minus_minus hmodulus, List.length_append]
      obtain ⟨hhalts, hheld⟩ := ih (got ++ chunk) (by rw [List.length_append, hgot])
      refine ⟨Program.Halts.of_step hrun hhalts, fun fuel t => ?_⟩
      cases fuel with
      | zero => exact loop_zero_ne
      | succ fuel =>
        intro hfull
        exact hheld fuel t ((hrun fuel).symm.trans hfull)

/-- A loop that does not settle asks on and on, or fails for want of room. -/
theorem loop_grows (hk : k.Lawful) {total : Nat} (htotal : total ≤ k.capacity) (got : List α)
    (hgot : got.length ≤ k.capacity) {s : S × List (ChunkEvent α)}
    (h : ¬ k.Settles total got.length s) (fuel : Nat) :
    s.2.length + fuel ≤ (k.loop total fuel (k.minus total got.length) got s).2.2.length ∨
      ∃ t, k.loop total fuel (k.minus total got.length) got s = (.error .lengthError, t) := by
  have hcapacity := hk.capacity_lt
  induction fuel generalizing got s with
  | zero => exact .inl (Nat.le_refl _)
  | succ fuel ih =>
    have hs : k.stopped s.1 = false := by
      cases hs : k.stopped s.1 with
      | true => exact absurd (Settles.stopped hs) h
      | false => rfl
    have howed : k.minus total got.length ≠ 0 := fun hzero =>
      h (Settles.complete (eq_of_minus_eq_zero (by omega) (by omega) hzero))
    rcases hk.loop_cases total (k.minus total got.length) got s with ⟨e, t, hfetch⟩ |
      ⟨chunk, s₁, hfetch, hlog, hlarge | ⟨hheld, s₂, hreport, htold⟩⟩
    · exact absurd (Settles.refused howed hfetch) h
    · exact .inr ⟨s₁, loop_overflows howed hs hfetch hlarge⟩
    · rw [loop_next howed hs hfetch hheld hreport, minus_minus (by omega), ← List.length_append]
      have hlength : (got ++ chunk).length = got.length + chunk.length := List.length_append
      rcases ih (got ++ chunk) (by omega) (s := s₂) (fun hsettles => h (Settles.brings howed hfetch
        hheld hreport (by rwa [hlength] at hsettles))) with hmore | hfull
      · exact .inl (by omega)
      · exact .inr hfull

/-- A loop that was not stopped has fetched all it was to fetch. -/
theorem loop_exact (hk : k.Lawful) {total : Nat} (htotal : total ≤ k.capacity) {got data : List α}
    (hgot : got.length ≤ k.capacity) {s t : S × List (ChunkEvent α)} {fuel : Nat}
    (h : k.loop total fuel (k.minus total got.length) got s = (.ok data, t))
    (ht : k.stopped t.1 = false) : data.length = total := by
  have hcapacity := hk.capacity_lt
  induction fuel generalizing got s with
  | zero => cases h
  | succ fuel ih =>
    by_cases hend : k.minus total got.length = 0 ∨ k.stopped s.1 = true
    · rw [loop_done hend, Prod.mk.injEq] at h
      obtain ⟨hdata, rfl⟩ := h
      obtain rfl := Except.ok.inj hdata
      rcases hend with hzero | hs
      · exact eq_of_minus_eq_zero (by omega) (by omega) hzero
      · rw [hs] at ht
        cases ht
    · obtain ⟨howed, hs⟩ := not_or.mp hend
      have hs : k.stopped s.1 = false := by simpa using hs
      rcases hk.loop_cases total (k.minus total got.length) got s with ⟨e, t', hfetch⟩ |
        ⟨chunk, s₁, hfetch, -, hlarge | ⟨hheld, s₂, hreport, -⟩⟩
      · rw [loop_refused howed hs hfetch] at h
        cases h
      · rw [loop_overflows howed hs hfetch hlarge] at h
        cases h
      · rw [loop_next howed hs hfetch hheld hreport, minus_minus (by omega),
          ← List.length_append] at h
        exact ih (by rwa [List.length_append]) h

/-! ### The whole transfer -/

theorem fetchAll_run {e : ε} {total : Nat} (htotal : total ≤ k.capacity) (fuel : Nat)
    (s : S × List (ChunkEvent α)) :
    k.fetchAll e total fuel s = (do
      let data ← k.loop total fuel total []
      Program.failIf (fun s => k.stopped s.1) (.returned e)
      pure data) s := by
  rw [fetchAll, Program.run_bind_ok (hold_ok htotal s)]

theorem fetchAll_error {e : ε} {total : Nat} (htotal : k.capacity < total) (fuel : Nat)
    (s : S × List (ChunkEvent α)) :
    k.fetchAll e total fuel s = (.error .lengthError, s) := by
  rw [fetchAll, Program.run_bind_error (hold_error htotal s)]

theorem fetchAll_state {e : ε} {total : Nat} (htotal : total ≤ k.capacity) (fuel : Nat)
    (s : S × List (ChunkEvent α)) :
    (k.fetchAll e total fuel s).2 = (k.loop total fuel total [] s).2 := by
  rw [fetchAll_run htotal, Program.run_bind]
  rcases k.loop total fuel total [] s with ⟨e' | data, t⟩
  · rfl
  · simp only [Program.run_bind, Program.run_failIf]
    cases k.stopped t.1 <;> rfl

theorem fetchAll_lengthError {e : ε} {total : Nat} (htotal : total ≤ k.capacity) {fuel : Nat}
    {s t : S × List (ChunkEvent α)} :
    k.fetchAll e total fuel s = (.error .lengthError, t) ↔
      k.loop total fuel total [] s = (.error .lengthError, t) := by
  rw [fetchAll_run htotal, Program.run_bind]
  rcases k.loop total fuel total [] s with ⟨e' | data, t'⟩
  · simp
  · simp only [Program.run_bind, Program.run_failIf]
    cases k.stopped t'.1 <;> simp

/-- A transfer that succeeds brings what was asked for. -/
theorem fetchAll_exact (hk : k.Lawful) {e : ε} {total fuel : Nat} {s t : S × List (ChunkEvent α)}
    {data : List α} (h : k.fetchAll e total fuel s = (.ok data, t)) : data.length = total := by
  have hcapacity := hk.capacity_lt
  rcases Nat.lt_or_ge k.capacity total with hlarge | htotal
  · rw [fetchAll_error hlarge] at h
    cases h
  rw [fetchAll_run htotal] at h
  obtain ⟨data', t', hrun, hcheck⟩ := Program.bind_eq_ok.mp h
  obtain ⟨⟨⟩, t'', hguard, hpure⟩ := Program.bind_eq_ok.mp hcheck
  obtain ⟨hstopped, rfl⟩ := Program.failIf_eq_ok.mp hguard
  rw [Program.run_pure, Prod.mk.injEq] at hpure
  obtain ⟨hdata, rfl⟩ := hpure
  obtain rfl := Except.ok.inj hdata
  have hstart : k.minus total ([] : List α).length = total := minus_zero (by omega)
  exact loop_exact hk htotal (Nat.zero_le _) (by rw [hstart]; exact hrun) hstopped

/-- A transfer returns exactly when a vector holds what is asked for and the source
settles for it. -/
theorem fetchAll_returns_iff (hk : k.Lawful) {e : ε} {total : Nat}
    {s : S × List (ChunkEvent α)} :
    Returns (k.fetchAll e total) s ↔ total ≤ k.capacity ∧ k.Settles total 0 s := by
  have hcapacity := hk.capacity_lt
  rcases Nat.lt_or_ge k.capacity total with hlarge | htotal
  · refine iff_of_false (fun h => h.2 0 s (fetchAll_error hlarge 0 s)) ?_
    rintro ⟨htotal, -⟩
    omega
  have hstart : k.minus total ([] : List α).length = total := minus_zero (by omega)
  constructor
  · rintro ⟨hhalts, hheld⟩
    refine ⟨htotal, Classical.byContradiction fun h => ?_⟩
    refine Traced.not_halts_of_grows (fun fuel => ?_) hhalts
    rcases loop_grows hk htotal [] (Nat.zero_le _) h fuel with hgrows | ⟨t, hfull⟩
    · rw [hstart] at hgrows
      rw [fetchAll_state htotal]
      exact Nat.le_trans (Nat.le_add_left _ _) hgrows
    · rw [hstart] at hfull
      exact absurd ((fetchAll_lengthError htotal).mpr hfull) (hheld fuel t)
  · rintro ⟨-, h⟩
    obtain ⟨hhalts, hheld⟩ := h.returns (by omega) [] rfl
    rw [hstart] at hhalts
    constructor
    · obtain ⟨n, hn⟩ := Program.Halts.bind hhalts fun data => do
        Program.failIf (fun s => k.stopped s.1) (.returned e)
        pure data
      refine ⟨n, fun m hm => ?_⟩
      rw [fetchAll_run htotal, fetchAll_run htotal]
      exact hn m hm
    · intro fuel t hfull
      have hloop := (fetchAll_lengthError htotal).mp hfull
      exact hheld fuel t (by rw [hstart]; exact hloop)

/-- The same of a transfer that opens with `p`. -/
theorem opened_returns_iff (hk : k.Lawful) {e : ε} {total : Nat} {s : S × List (ChunkEvent α)}
    (p : Traced S (ChunkEvent α) ε Unit) :
    Returns (fun fuel => Program.mapError .returned p >>= fun _ => k.fetchAll e total fuel) s ↔
      ∀ t, p s = (.ok (), t) → total ≤ k.capacity ∧ k.Settles total 0 t := by
  rcases hp : p s with ⟨e' | ⟨⟩, t⟩
  · refine iff_of_true ?_ (by rintro t ⟨⟩)
    have hrun (fuel : Nat) : (Program.mapError .returned p >>= fun _ => k.fetchAll e total fuel) s
        = (.error (.returned e'), t) := Program.run_bind_error (Program.mapError_error _ hp)
    refine ⟨⟨0, fun m _ => (hrun m).trans (hrun 0).symm⟩, fun fuel t' hfull => ?_⟩
    cases (hrun fuel).symm.trans hfull
  · have hrun (fuel : Nat) : (Program.mapError .returned p >>= fun _ => k.fetchAll e total fuel) s
        = k.fetchAll e total fuel t := Program.run_bind_ok (Program.mapError_ok _ hp)
    have hreturns : Returns (fun fuel => Program.mapError .returned p >>= fun _ =>
        k.fetchAll e total fuel) s ↔ Returns (k.fetchAll e total) t := by
      simp only [Returns, Program.Halts, hrun]
    rw [hreturns, fetchAll_returns_iff hk]
    constructor
    · rintro h t' ⟨⟩
      exact h
    · intro h
      exact h t rfl

theorem opened_exact (hk : k.Lawful) {e : ε} {total fuel : Nat} {s t : S × List (ChunkEvent α)}
    {p : Traced S (ChunkEvent α) (FetchFailure ε) Unit} {data : List α}
    (h : (p >>= fun _ => k.fetchAll e total fuel) s = (.ok data, t)) : data.length = total := by
  obtain ⟨⟨⟩, t', -, hfetch⟩ := Program.bind_eq_ok.mp h
  exact fetchAll_exact hk hfetch

/-! ### The plain loop -/

/-- Unless a vector is asked to hold too much, the run is that of `q`. -/
def Keeps {β : Type} (p : Traced S (ChunkEvent α) (FetchFailure ε) β) (q : Program S ε β) :
    Prop :=
  ∀ s, (p s).1 = .error .lengthError ∨
    (p s).1 = (q s.1).1.mapError .returned ∧ (p s).2.1 = (q s.1).2

namespace Keeps

variable {β γ : Type}

protected theorem mapError {p : Traced S (ChunkEvent α) ε β} {q : Program S ε β}
    (h : Traced.Erases p q) : Keeps (Program.mapError .returned p) q := by
  intro s
  refine .inr ?_
  rw [h s]
  exact ⟨rfl, rfl⟩

protected theorem pure (b : β) :
    Keeps (pure b : Traced S (ChunkEvent α) (FetchFailure ε) β) (pure b) :=
  fun _ => .inr ⟨rfl, rfl⟩

protected theorem bind {p : Traced S (ChunkEvent α) (FetchFailure ε) β} {q : Program S ε β}
    {f : β → Traced S (ChunkEvent α) (FetchFailure ε) γ} {f' : β → Program S ε γ}
    (hp : Keeps p q) (hf : ∀ b, Keeps (f b) (f' b)) : Keeps (p >>= f) (q >>= f') := by
  intro s
  rcases hps : p s with ⟨failure | b, t⟩
  · rw [Program.run_bind_error hps]
    rcases hp s with hfull | ⟨hresult, hstate⟩
    · rw [hps] at hfull
      cases hfull
      exact .inl rfl
    · rw [hps] at hresult hstate
      rcases hq : q s.1 with ⟨e | b, u⟩
      · rw [Program.run_bind_error hq]
        rw [hq] at hresult hstate
        cases hresult
        exact .inr ⟨rfl, hstate⟩
      · rw [hq] at hresult
        cases hresult
  · rw [Program.run_bind_ok hps]
    rcases hp s with hfull | ⟨hresult, hstate⟩
    · rw [hps] at hfull
      cases hfull
    · rw [hps] at hresult hstate
      rcases hq : q s.1 with ⟨e | b', u⟩
      · rw [hq] at hresult
        cases hresult
      · rw [hq] at hresult hstate
        obtain rfl : b = b' := Except.ok.inj hresult
        obtain rfl : t.1 = u := hstate
        rw [Program.run_bind_ok hq]
        exact hf b t

/-- Holding something either fails or makes no difference. -/
protected theorem hold_bind {n : Nat} {p : Traced S (ChunkEvent α) (FetchFailure ε) β}
    {q : Program S ε β} (h : Keeps p q) : Keeps (k.hold n >>= fun _ => p) q := by
  intro s
  rcases Nat.lt_or_ge k.capacity n with hlarge | hheld
  · rw [Program.run_bind_error (hold_error hlarge s)]
    exact .inl rfl
  · rw [Program.run_bind_ok (hold_ok hheld s)]
    exact h s

end Keeps

end ChunkFetcher

end MBootCore
