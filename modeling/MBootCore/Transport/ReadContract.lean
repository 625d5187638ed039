import MBootCore.Support.CallRun
import MBootCore.Transport.BackendTransport
import Mathlib

/-!
# Transport — ReadContract

What `read` owes its callers: a number of bytes between the two bounds, and
over a run of reads every byte of the backend once and in order. Two things go
wrong. The USB transport returns whatever one bulk read brought. The loop of
the other three drops the bytes it has in hand when it is left with an error.
-/

namespace MBootCore

namespace Poll

/-- The read ends with an error. -/
def isFailure : Poll → Bool
  | cancelled | expired => true
  | failed e => e ≠ .transportTimeout
  | bytes _ => false

def count : Poll → Nat
  | bytes k => k
  | _ => 0

/-- The bytes offered before the first failure. -/
def offered (script : List Poll) : Nat :=
  ((script.takeWhile fun poll => !poll.isFailure).map count).sum

theorem offered_of_failure {poll : Poll} {script : List Poll} (h : poll.isFailure = true) :
    offered (poll :: script) = 0 := by
  simp [offered, h]

theorem offered_cons {poll : Poll} {script : List Poll} (h : poll.isFailure = false) :
    offered (poll :: script) = poll.count + offered script := by
  simp [offered, h]

end Poll

namespace BackendTransport

@[simp] theorem upcoming_length (t : BackendTransport) (n : Nat) :
    (t.upcoming n).length = n := by
  simp [upcoming]

@[simp] theorem upcoming_zero (t : BackendTransport) : t.upcoming 0 = [] := rfl

theorem upcoming_add (t t' : BackendTransport) {m : Nat} (hstream : t'.stream = t.stream)
    (hposition : t'.position = t.position + m) (n : Nat) :
    t.upcoming m ++ t'.upcoming n = t.upcoming (m + n) := by
  rw [upcoming, upcoming, upcoming, List.range_add, List.map_append, List.map_map, hstream,
    hposition]
  simp [Function.comp_def, Nat.add_assoc]

/-- A pass of the loop: what it took from the backend, and how it was left. -/
structure Looped (minBytes maxBytes : Nat) (script : List Poll) (received : ByteBuffer)
    (t : BackendTransport) (outcome : Option ErrorCode × ByteBuffer × BackendTransport)
    (n : Nat) : Prop where
  received_eq : outcome.2.1 = received ++ t.upcoming n
  stream_eq : outcome.2.2.stream = t.stream
  position_eq : outcome.2.2.position = t.position + n
  le_max : received.length + n ≤ maxBytes
  le_offered : n ≤ Poll.offered script
  of_none : outcome.1 = none → minBytes ≤ received.length + n
  of_some : ∀ e, outcome.1 = some e →
    n = Poll.offered script ∧ received.length + n < minBytes

theorem readLoop_looped {minBytes maxBytes : Nat} (hbounds : minBytes ≤ maxBytes)
    (script : List Poll) (received : ByteBuffer) (t : BackendTransport)
    (hreceived : received.length ≤ maxBytes) :
    ∃ n, Looped minBytes maxBytes script received t
      (readLoop minBytes maxBytes script received t) n := by
  induction script generalizing received t with
  | nil =>
    refine ⟨0, ?_⟩
    simp only [readLoop]
    split
    · exact ⟨by simp, rfl, rfl, by simpa using hreceived, by simp, fun h => (by cases h),
        fun e _ => ⟨rfl, by simpa⟩⟩
    · exact ⟨by simp, rfl, rfl, by simpa using hreceived, by simp, fun _ => by omega,
      fun _ h => by cases h⟩
  | cons poll script ih =>
    simp only [readLoop]
    split
    · rename_i hless
      cases poll with
      | cancelled =>
        have hzero : Poll.offered (.cancelled :: script) = 0 := Poll.offered_of_failure rfl
        exact ⟨0, by simp, rfl, rfl, by simpa using hreceived, by simp, fun h => (by cases h),
          fun e _ => ⟨hzero.symm, by simpa⟩⟩
      | expired =>
        have hzero : Poll.offered (.expired :: script) = 0 := Poll.offered_of_failure rfl
        exact ⟨0, by simp, rfl, rfl, by simpa using hreceived, by simp, fun h => (by cases h),
          fun e _ => ⟨hzero.symm, by simpa⟩⟩
      | failed code =>
        by_cases htimeout : code = .transportTimeout
        · -- the loop goes on as if it had not looked
          have hoffered : Poll.offered (.failed code :: script) = Poll.offered script := by
            rw [Poll.offered_cons (by simp [Poll.isFailure, htimeout])]
            exact Nat.zero_add _
          obtain ⟨n, hn⟩ := ih received t hreceived
          simp only [htimeout, if_true]
          rw [htimeout] at hoffered
          exact ⟨n, hn.received_eq, hn.stream_eq, hn.position_eq, hn.le_max,
            hoffered ▸ hn.le_offered, hn.of_none, hoffered ▸ hn.of_some⟩
        · have hzero : Poll.offered (.failed code :: script) = 0 :=
            Poll.offered_of_failure (by simp [Poll.isFailure, htimeout])
          simp only [htimeout, if_false]
          exact ⟨0, by simp, rfl, rfl, by simpa using hreceived, by simp, fun h => (by cases h),
            fun e _ => ⟨hzero.symm, by simpa⟩⟩
      | bytes k =>
        have hoffered : Poll.offered (.bytes k :: script) = k + Poll.offered script :=
          Poll.offered_cons rfl
        obtain ⟨n, hn⟩ := ih (received ++ (t.handOut k (maxBytes - received.length)).1)
          (t.handOut k (maxBytes - received.length)).2
          (by simp only [handOut, List.length_append, upcoming_length]; omega)
        have hle := hn.le_max
        have hle' := hn.le_offered
        simp only [handOut, List.length_append, upcoming_length] at hle
        refine ⟨min k (maxBytes - received.length) + n, ?_, hn.stream_eq, ?_, by omega, by omega,
          fun h => ?_, fun e h => ?_⟩
        · have hadd : t.upcoming (min k (maxBytes - received.length))
              ++ (t.handOut k (maxBytes - received.length)).2.upcoming n
                = t.upcoming (min k (maxBytes - received.length) + n) :=
            upcoming_add t (t.handOut k (maxBytes - received.length)).2 rfl rfl n
          rw [hn.received_eq, List.append_assoc, ← hadd]
          rfl
        · rw [hn.position_eq, ← Nat.add_assoc]
          rfl
        · have hmin := hn.of_none h
          simp only [handOut, List.length_append, upcoming_length] at hmin
          omega
        · -- short of `minBytes` the capacity never cuts an answer
          obtain ⟨hall, hshort⟩ := hn.of_some e h
          simp only [handOut, List.length_append, upcoming_length] at hshort
          omega
    · exact ⟨0, by simp, rfl, rfl, by simpa using hreceived, by simp, fun _ => by omega,
      fun _ h => by cases h⟩

end BackendTransport

open BackendTransport

/-! ## One read -/

/-- The bytes a read delivers to its caller. -/
def ReadOutcome.delivered (outcome : ReadOutcome) : ByteBuffer :=
  match outcome.result with
  | .ok _ => outcome.buffer
  | .error _ => []

namespace ReadCall

/-- What the backend has to do for a read to keep the contract: to answer a
bulk read with enough bytes, and to fail a polled read before it offers any
or once it has offered enough. A read that fails at once is not concerned. -/
def Served (kind : BackendKind) (call : ReadCall) (t : BackendTransport) : Prop :=
  t.state = .opened → t.cancelled = false →
    match kind with
    | .usb => ∀ k, t.script.head? = some (.bytes k) → call.minBytes ≤ k
    | _ => Poll.offered t.script = 0 ∨ call.minBytes ≤ Poll.offered t.script

/-- A successful read returns a count between the bounds and a buffer of that
length. -/
def Bounded (call : ReadCall) (outcome : ReadOutcome) : Prop :=
  ∀ n, outcome.result = .ok n →
    call.minBytes ≤ n ∧ n ≤ call.maxBytes ∧ outcome.buffer.length = n

/-- What holds of every read: the bytes delivered are the next of the stream,
though the backend may have handed out more. -/
structure Delivers (t : BackendTransport) (r : ReadOutcome × BackendTransport) : Prop where
  stream_eq : r.2.stream = t.stream
  delivered_eq : r.1.delivered = t.upcoming r.1.delivered.length
  le_position : t.position + r.1.delivered.length ≤ r.2.position

/-- Nothing handed out, nothing delivered. -/
theorem Delivers.of_error {t : BackendTransport} {e : ErrorCode} {buffer : ByteBuffer}
    {t' : BackendTransport} (hstream : t'.stream = t.stream)
    (hposition : t.position ≤ t'.position) :
    Delivers t (⟨.error e, buffer⟩, t') :=
  ⟨hstream, rfl, hposition⟩

theorem Delivers.of_ok {t t' : BackendTransport} {n : Nat} (hstream : t'.stream = t.stream)
    (hposition : t'.position = t.position + n) :
    Delivers t (⟨.ok (t.upcoming n).length, t.upcoming n⟩, t') := by
  refine ⟨hstream, ?_, ?_⟩
  · simp [ReadOutcome.delivered]
  · simp [ReadOutcome.delivered, hposition]

/-- The contract of one read holds exactly when the backend serves it. -/
def Spec (kind : BackendKind) (call : ReadCall) (t : BackendTransport)
    (r : ReadOutcome × BackendTransport) : Prop :=
  Delivers t r ∧
    (call.Bounded r.1 ∧ r.2.position = t.position + r.1.delivered.length ↔ call.Served kind t)

variable (call : ReadCall) (t : BackendTransport)

theorem refused_spec (kind : BackendKind) (e : ErrorCode)
    (h : t.state ≠ .opened ∨ t.cancelled = true) :
    call.Spec kind t (⟨.error e, call.buffer⟩, t) := by
  refine ⟨.of_error rfl (Nat.le_refl _), ⟨fun _ hopen hcancelled => ?_, fun _ => ⟨nofun, rfl⟩⟩⟩
  rcases h with h | h
  · exact absurd hopen h
  · rw [hcancelled] at h
    cases h

theorem usb_spec : call.Spec .usb t (call.run .usb t) := by
  by_cases hclosed : t.state ≠ .opened
  · rw [run, UsbTransport.read, if_pos hclosed]
    exact call.refused_spec t .usb _ (.inl hclosed)
  have hopen : t.state = .opened := by simpa using hclosed
  by_cases hcancelled : t.cancelled = true
  · rw [run, UsbTransport.read, if_neg hclosed, if_pos hcancelled]
    exact call.refused_spec t .usb _ (.inr hcancelled)
  rw [run, UsbTransport.read, if_neg hclosed, if_neg hcancelled, bulkRead]
  cases hscript : t.script with
  | nil =>
    refine ⟨.of_error rfl (Nat.le_refl _), ⟨fun _ _ _ k hk => ?_, fun _ => ⟨nofun, rfl⟩⟩⟩
    rw [hscript] at hk
    cases hk
  | cons poll script =>
    cases poll with
    | bytes k =>
      refine ⟨.of_ok rfl rfl, ⟨fun ⟨hbounded, _⟩ _ _ k' hk' => ?_, fun hserved => ⟨?_, ?_⟩⟩⟩
      · rw [hscript, List.head?_cons, Option.some.injEq, Poll.bytes.injEq] at hk'
        obtain ⟨hmin, -, -⟩ := hbounded _ rfl
        simp only [handOut, upcoming_length] at hmin
        omega
      · intro n hn
        obtain rfl := Except.ok.inj hn
        have hmin : call.minBytes ≤ k :=
          hserved hopen (by simpa using hcancelled) k (by rw [hscript]; rfl)
        have hbounds := call.min_le_max
        simp only [handOut, upcoming_length, and_true]
        omega
      · simp [handOut, countRead, ReadOutcome.delivered]
    | _ =>
      refine ⟨.of_error rfl (Nat.le_refl _), ⟨fun _ _ _ k hk => ?_, fun _ => ⟨nofun, rfl⟩⟩⟩
      rw [hscript] at hk
      cases hk

theorem pollingRead_spec {kind : BackendKind} (hkind : kind ≠ .usb) :
    call.Spec kind t (pollingRead call.buffer call.minBytes call.maxBytes t) := by
  by_cases hclosed : t.state ≠ .opened
  · rw [pollingRead, if_pos hclosed]
    exact call.refused_spec t kind _ (.inl hclosed)
  have hopen : t.state = .opened := by simpa using hclosed
  by_cases hcancelled : t.cancelled = true
  · rw [pollingRead, if_neg hclosed, if_pos hcancelled]
    exact call.refused_spec t kind _ (.inr hcancelled)
  rw [pollingRead, if_neg hclosed, if_neg hcancelled]
  have hserved : call.Served kind t ↔
      (Poll.offered t.script = 0 ∨ call.minBytes ≤ Poll.offered t.script) := by
    cases kind with
    | usb => exact absurd rfl hkind
    | _ => exact ⟨fun h => h hopen (by simpa using hcancelled), fun h _ _ => h⟩
  obtain ⟨n, hn⟩ := readLoop_looped call.min_le_max t.script [] t (Nat.zero_le _)
  rcases hloop : readLoop call.minBytes call.maxBytes t.script [] t with ⟨_ | e, received, t'⟩
  · rw [hloop] at hn
    obtain rfl : received = t.upcoming n := hn.received_eq
    have hmin := hn.of_none rfl
    have hmax := hn.le_max
    have hoffered := hn.le_offered
    rw [List.length_nil, Nat.zero_add] at hmin hmax
    refine ⟨.of_ok hn.stream_eq hn.position_eq, ⟨fun _ => hserved.mpr (.inr (by omega)),
      fun _ => ⟨?_, ?_⟩⟩⟩
    · intro m hm
      obtain rfl := Except.ok.inj hm
      simpa using ⟨hmin, hmax⟩
    · simpa [ReadOutcome.delivered, countRead] using hn.position_eq
  · rw [hloop] at hn
    obtain ⟨hall, hshort⟩ := hn.of_some e rfl
    have hposition : t'.position = t.position + n := hn.position_eq
    rw [List.length_nil, Nat.zero_add] at hshort
    refine ⟨.of_error hn.stream_eq (by omega), ⟨fun ⟨_, hkept⟩ => hserved.mpr (.inl ?_),
      fun h => ⟨nofun, ?_⟩⟩⟩
    · have hsame : t'.position = t.position := hkept
      omega
    · change t'.position = t.position
      rcases hserved.mp h with hnone | henough
      · omega
      · omega

theorem run_spec (kind : BackendKind) : call.Spec kind t (call.run kind t) := by
  cases kind with
  | usb => exact call.usb_spec t
  | tcp => exact call.pollingRead_spec t (by decide)
  | serial => exact call.pollingRead_spec t (by decide)
  | udp => exact call.pollingRead_spec t (by decide)

end ReadCall

/-! ## Runs -/

variable (kind : BackendKind)

/-- The bytes a run of reads delivers. -/
def delivered (calls : List ReadCall) (t : BackendTransport) : ByteBuffer :=
  (CallRun.records (ReadCall.run kind) calls t).flatMap fun r => r.result.delivered

/-- The reads are within their bounds, and what they deliver is a prefix of the
stream, with nothing of what the backend handed out missing. -/
structure ReadContract (calls : List ReadCall) (t : BackendTransport) : Prop where
  bounded : ∀ r ∈ CallRun.records (ReadCall.run kind) calls t, r.call.Bounded r.result
  is_prefix : ∃ n, delivered kind calls t = t.upcoming n
  complete : (CallRun.final (ReadCall.run kind) calls t).position
    = t.position + (delivered kind calls t).length

variable {kind}

theorem delivered_cons (call : ReadCall) (calls : List ReadCall) (t : BackendTransport) :
    delivered kind (call :: calls) t
      = (call.run kind t).1.delivered ++ delivered kind calls (call.run kind t).2 :=
  List.flatMap_cons

/-- A run never delivers more than the backend handed out. -/
theorem delivered_le (kind : BackendKind) (calls : List ReadCall) (t : BackendTransport) :
    t.position + (delivered kind calls t).length
      ≤ (CallRun.final (ReadCall.run kind) calls t).position := by
  induction calls generalizing t with
  | nil => exact Nat.le_refl _
  | cons call calls ih =>
    have hfirst := (call.run_spec t kind).1.le_position
    have hrest := ih (call.run kind t).2
    rw [delivered_cons, List.length_append, CallRun.final_cons]
    omega

/-- A run within its bounds that loses nothing is one whose reads are all
served. -/
theorem complete_iff (calls : List ReadCall) (t : BackendTransport) :
    ((∀ r ∈ CallRun.records (ReadCall.run kind) calls t, r.call.Bounded r.result) ∧
        (CallRun.final (ReadCall.run kind) calls t).position
          = t.position + (delivered kind calls t).length) ↔
      ∀ r ∈ CallRun.records (ReadCall.run kind) calls t, r.call.Served kind r.before := by
  induction calls generalizing t with
  | nil => simp [delivered]
  | cons call calls ih =>
    obtain ⟨hdelivers, hserved⟩ := call.run_spec t kind
    have hfirst := hdelivers.le_position
    have hrest := delivered_le kind calls (call.run kind t).2
    rw [CallRun.records_cons, List.forall_mem_cons, List.forall_mem_cons, CallRun.final_cons,
      delivered_cons, List.length_append, ← ih]
    constructor
    · rintro ⟨⟨hbounded, hbounds⟩, hcomplete⟩
      refine ⟨hserved.mp ⟨hbounded, by omega⟩, hbounds, by omega⟩
    · rintro ⟨hcall, hbounds, hcomplete⟩
      obtain ⟨hbounded, hposition⟩ := hserved.mpr hcall
      exact ⟨⟨hbounded, hbounds⟩, by omega⟩

/-- A run that loses nothing delivers a prefix of the stream. -/
theorem delivered_eq (calls : List ReadCall) (t : BackendTransport)
    (h : (CallRun.final (ReadCall.run kind) calls t).position
      = t.position + (delivered kind calls t).length) :
    delivered kind calls t = t.upcoming (delivered kind calls t).length := by
  induction calls generalizing t with
  | nil => rfl
  | cons call calls ih =>
    obtain ⟨hdelivers, -⟩ := call.run_spec t kind
    have hfirst := hdelivers.le_position
    have hrest := delivered_le kind calls (call.run kind t).2
    rw [CallRun.final_cons, delivered_cons, List.length_append] at h
    have hposition : (call.run kind t).2.position
        = t.position + (call.run kind t).1.delivered.length := by omega
    rw [delivered_cons, List.length_append,
      ← upcoming_add t (call.run kind t).2 hdelivers.stream_eq hposition,
      ← hdelivers.delivered_eq, ← ih (call.run kind t).2 (by omega)]

/-- The read contract holds of a run exactly when the backend serves each of
its reads. -/
theorem readContract_iff (kind : BackendKind) (calls : List ReadCall) (t : BackendTransport) :
    ReadContract kind calls t ↔
      ∀ r ∈ CallRun.records (ReadCall.run kind) calls t, r.call.Served kind r.before := by
  rw [← complete_iff]
  constructor
  · intro h
    exact ⟨h.bounded, h.complete⟩
  · rintro ⟨hbounded, hcomplete⟩
    exact ⟨hbounded, ⟨_, delivered_eq calls t hcomplete⟩, hcomplete⟩

/-- A backend that sends one byte, stays silent for the rest of a read, and
sends the next byte after. -/
def hesitant : BackendTransport where
  stream i := UInt8.ofNat i
  script := [.bytes 1, .expired, .bytes 1]

/-- The byte a timed-out read had in hand is gone. -/
theorem hesitant_loses_byte :
    ¬ ∀ (kind : BackendKind) (calls : List ReadCall) (t : BackendTransport),
      (∀ r ∈ CallRun.records (ReadCall.run kind) calls t, r.call.Bounded r.result) ∧
        ∃ n, delivered kind calls t = t.upcoming n := by
  intro hall
  obtain ⟨-, n, hn⟩ := hall .tcp [⟨[], 2, 2, by decide⟩, ⟨[], 1, 1, by decide⟩] hesitant
  have hdelivered : delivered .tcp [⟨[], 2, 2, by decide⟩, ⟨[], 1, 1, by decide⟩] hesitant
      = [1] := by decide
  rw [hdelivered] at hn
  obtain rfl : n = 1 := by
    have hlength := congrArg List.length hn
    simpa using hlength.symm
  exact absurd hn (by decide)

end MBootCore
