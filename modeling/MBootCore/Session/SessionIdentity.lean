import MBootCore.Session.DeviceManager

/-!
# Session — SessionIdentity

Which sessions of a manager share an id. The id names the device and not the session: the
vendor and product of a USB device, the port of a serial one, the address of a network one.
It tells the sessions apart as long as no two of them are for devices of one such name.
-/

namespace MBootCore.Session

/-! ## What an id says -/

inductive DeviceKey where
  | usb (vid pid : UInt16)
  | serial (port : String)
  | tcp (host : String) (port : UInt16)
  deriving DecidableEq, Repr

/-- What the id names of the device; nothing for a device without an address. -/
def DeviceDescriptor.key (d : DeviceDescriptor) : Option DeviceKey :=
  if d.usbVid ≠ 0 then some (.usb d.usbVid d.usbPid)
  else if d.serialPort ≠ "" then some (.serial d.serialPort)
  else if d.tcpHost ≠ "" then some (.tcp d.tcpHost d.tcpPort)
  else none

def DeviceKey.text : DeviceKey → List Char
  | usb vid pid =>
    "usb:".toList ++ (Nat.toDigits 16 vid.toNat ++ ':' :: Nat.toDigits 16 pid.toNat)
  | serial port => "serial:".toList ++ port.toList
  | tcp host port => "tcp:".toList ++ (host.toList ++ ':' :: Nat.toDigits 10 port.toNat)

/-- The text of the id, for the session at the address. -/
def idText (address : Nat) : Option DeviceKey → List Char
  | some key => key.text
  | none => "session:".toList ++ Nat.toDigits 10 address

theorem makeSessionId_toList (address : Nat) (d : DeviceDescriptor) :
    (makeSessionId address d).toList = idText address d.key := by
  have hcolon : ":".toList = [':'] := rfl
  unfold makeSessionId DeviceDescriptor.key
  split
  · unfold idText DeviceKey.text
    simp only [String.toList_append, hexText, String.toList_ofList, hcolon, List.append_assoc,
      List.cons_append, List.nil_append]
  split
  · unfold idText DeviceKey.text
    simp only [String.toList_append]
  split
  · unfold idText DeviceKey.text
    simp only [String.toList_append, decimalText, String.toList_ofList, hcolon,
      List.append_assoc, List.cons_append, List.nil_append]
  · unfold idText
    simp only [String.toList_append, decimalText, String.toList_ofList]

/-! ## Reading an id back -/

theorem toDigits_injective {base : Nat} (hbase : 1 < base) (h16 : base ≤ 16) {n m : Nat}
    (h : Nat.toDigits base n = Nat.toDigits base m) : n = m := by
  have hn := Digits.readDigits_toDigits hbase h16 n
  have hm := Digits.readDigits_toDigits hbase h16 m
  rw [h, hm] at hn
  exact (Option.some.inj hn).symm

theorem colon_not_mem_toDigits {base : Nat} (hbase : 1 < base) (h16 : base ≤ 16) (n : Nat) :
    ':' ∉ Nat.toDigits base n := by
  intro hmem
  obtain ⟨d, hd, hdigit⟩ := Digits.mem_toDigits hbase hmem
  have hnone : ∀ d : Fin 16, ':' ≠ d.val.digitChar := by decide
  exact hnone ⟨d, by omega⟩ hdigit

/-- The last of a character splits a text in one way. -/
theorem split_last {c : Char} {xs xs' ys ys' : List Char} (hys : c ∉ ys) (hys' : c ∉ ys')
    (h : xs ++ c :: ys = xs' ++ c :: ys') : xs = xs' ∧ ys = ys' := by
  rcases List.append_eq_append_iff.mp h with ⟨zs, hxs, hrest⟩ | ⟨zs, hxs, hrest⟩
  · cases zs with
    | nil => exact ⟨by rw [hxs, List.append_nil], (List.cons.inj hrest).2⟩
    | cons z zs =>
      obtain ⟨-, hlater⟩ := List.cons.inj hrest
      exact absurd (hlater ▸ List.mem_append_right zs List.mem_cons_self) hys
  · cases zs with
    | nil => exact ⟨by rw [hxs, List.append_nil], (List.cons.inj hrest).2.symm⟩
    | cons z zs =>
      obtain ⟨-, hlater⟩ := List.cons.inj hrest
      exact absurd (hlater ▸ List.mem_append_right zs List.mem_cons_self) hys'

theorem DeviceKey.text_injective {key key' : DeviceKey} (h : key.text = key'.text) :
    key = key' := by
  cases key with
  | usb vid pid =>
    cases key' with
    | usb vid' pid' =>
      obtain ⟨hvid, hpid⟩ := split_last (colon_not_mem_toDigits (by decide) (by decide) _)
        (colon_not_mem_toDigits (by decide) (by decide) _) (List.append_cancel_left h)
      rw [UInt16.toNat_inj.mp (toDigits_injective (by decide) (by decide) hvid),
        UInt16.toNat_inj.mp (toDigits_injective (by decide) (by decide) hpid)]
    | serial port => cases h
    | tcp host port => cases h
  | serial port =>
    cases key' with
    | usb vid pid => cases h
    | serial port' => rw [String.toList_inj.mp (List.append_cancel_left h)]
    | tcp host port => cases h
  | tcp host port =>
    cases key' with
    | usb vid pid => cases h
    | serial port => cases h
    | tcp host' port' =>
      obtain ⟨hhost, hport⟩ := split_last (colon_not_mem_toDigits (by decide) (by decide) _)
        (colon_not_mem_toDigits (by decide) (by decide) _) (List.append_cancel_left h)
      rw [String.toList_inj.mp hhost,
        UInt16.toNat_inj.mp (toDigits_injective (by decide) (by decide) hport)]

/-- Sessions share an id exactly when they share the name of their device, or there is none
and they are one object. -/
theorem makeSessionId_eq_iff (address address' : Nat) (d d' : DeviceDescriptor) :
    makeSessionId address d = makeSessionId address' d' ↔
      d.key = d'.key ∧ (d.key = none → address = address') := by
  rw [← String.toList_inj, makeSessionId_toList, makeSessionId_toList]
  constructor
  · intro h
    cases hkey : d.key with
    | none =>
      cases hkey' : d'.key with
      | none =>
        rw [hkey, hkey'] at h
        refine ⟨rfl, fun _ => ?_⟩
        exact toDigits_injective (by decide) (by decide) (List.append_cancel_left h)
      | some key' =>
        rw [hkey, hkey'] at h
        cases key' <;> cases h
    | some key =>
      cases hkey' : d'.key with
      | none =>
        rw [hkey, hkey'] at h
        cases key <;> cases h
      | some key' =>
        rw [hkey, hkey'] at h
        rw [DeviceKey.text_injective h]
        exact ⟨rfl, fun hnone => by cases hnone⟩
  · rintro ⟨hkey, haddress⟩
    rw [← hkey]
    cases h : d.key with
    | none => rw [haddress h]
    | some key => rfl

/-! ## Runs -/

namespace DeviceManager

/-- No live session is at the address. -/
def Free (m : DeviceManager) (address : Nat) : Prop := ∀ s ∈ m.sessions, s.address ≠ address

/-- No live session is for a device of the same name. -/
def NewDevice (m : DeviceManager) (d : DeviceDescriptor) : Prop :=
  d.key ≠ none → ∀ s ∈ m.sessions, s.descriptor.key ≠ d.key

instance (m : DeviceManager) (address : Nat) : Decidable (m.Free address) :=
  inferInstanceAs (Decidable (∀ s ∈ m.sessions, s.address ≠ address))

instance (m : DeviceManager) (d : DeviceDescriptor) : Decidable (m.NewDevice d) :=
  inferInstanceAs (Decidable (d.key ≠ none → ∀ s ∈ m.sessions, s.descriptor.key ≠ d.key))

/-- The session that is made, if one is, is an object of its own, and `allowed`. -/
def Makes (allowed : DeviceManager → DeviceDescriptor → Prop) (factory : DeviceSessionFactory)
    (m : DeviceManager) (descriptor : DeviceDescriptor) (address : Nat) : Prop :=
  ∀ d, factory.createSession descriptor = .ok d → m.Free address ∧ allowed m d

/-- The same of each session that a discovery makes. -/
def MakesEach (allowed : DeviceManager → DeviceDescriptor → Prop)
    (factory : DeviceSessionFactory) : List (DeviceDescriptor × Nat) → DeviceManager → Prop
  | [], _ => True
  | (descriptor, address) :: rest, m =>
    m.Makes allowed factory descriptor address ∧
      MakesEach allowed factory rest (m.createSession factory descriptor address).2

/-- Managers that calls lead to. What the protocols registered make of a descriptor may
change from call to call. -/
inductive Reached (allowed : DeviceManager → DeviceDescriptor → Prop) : DeviceManager → Prop
  | new : Reached allowed {}
  | createSession {m : DeviceManager} (factory : DeviceSessionFactory)
      (descriptor : DeviceDescriptor) (address : Nat) (h : Reached allowed m)
      (hmakes : m.Makes allowed factory descriptor address) :
      Reached allowed (m.createSession factory descriptor address).2
  | discoverAndCreate {m : DeviceManager} (factory : DeviceSessionFactory)
      (found : List (DeviceDescriptor × Nat)) (h : Reached allowed m)
      (hmakes : MakesEach allowed factory found m) :
      Reached allowed (discoverAndCreate factory found m).2
  | removeSession {m : DeviceManager} (sessionId : String) (h : Reached allowed m) :
      Reached allowed (m.removeSession sessionId).2
  | removeSessionObject {m : DeviceManager} (session : Option Nat) (h : Reached allowed m) :
      Reached allowed (m.removeSessionObject session).2

/-- Ids are as the sessions made them, objects are told apart by their address, and devices
by their names. -/
structure Named (m : DeviceManager) : Prop where
  made : ∀ s ∈ m.sessions, s.sessionId = makeSessionId s.address s.descriptor
  apart : m.sessions.Pairwise fun s t =>
    s.address ≠ t.address ∧ (s.descriptor.key = none ∨ s.descriptor.key ≠ t.descriptor.key)

theorem Named.sublist {m m' : DeviceManager} (h : m.Named)
    (hsub : m'.sessions.Sublist m.sessions) : m'.Named where
  made := fun s hs => h.made s (hsub.subset hs)
  apart := h.apart.sublist hsub

theorem Named.createSession {m : DeviceManager} (h : m.Named) {factory : DeviceSessionFactory}
    {descriptor : DeviceDescriptor} {address : Nat}
    (hmakes : m.Makes NewDevice factory descriptor address) :
    (m.createSession factory descriptor address).2.Named := by
  unfold Makes at hmakes
  rw [DeviceManager.createSession]
  cases hcreate : factory.createSession descriptor with
  | error e => exact h
  | ok d =>
    obtain ⟨hfree, hnew⟩ := hmakes d hcreate
    constructor
    · intro s hs
      rcases List.mem_append.mp hs with hs | hs
      · exact h.made s hs
      · rw [List.mem_singleton.mp hs]
        rfl
    · refine List.pairwise_append.mpr ⟨h.apart, List.pairwise_singleton _ _, ?_⟩
      intro s hs t ht
      rw [List.mem_singleton.mp ht]
      refine ⟨hfree s hs, ?_⟩
      by_cases hkey : d.key = none
      · by_cases hkey' : s.descriptor.key = none
        · exact .inl hkey'
        · exact .inr fun hsame => hkey' (hsame.trans hkey)
      · exact .inr (hnew hkey s hs)

theorem Named.discoverAndCreate {factory : DeviceSessionFactory}
    (found : List (DeviceDescriptor × Nat)) {m : DeviceManager} (h : m.Named)
    (hmakes : MakesEach NewDevice factory found m) :
    (DeviceManager.discoverAndCreate factory found m).2.Named := by
  induction found generalizing m with
  | nil => exact h
  | cons device rest ih =>
    obtain ⟨descriptor, address⟩ := device
    obtain ⟨hmakes, hrest⟩ := hmakes
    have hlater := ih (h.createSession hmakes) hrest
    rw [DeviceManager.discoverAndCreate]
    cases hcreate : m.createSession factory descriptor address with
    | mk result m' =>
      rw [hcreate] at hlater
      cases result with
      | ok session => exact hlater
      | error e => exact hlater

theorem removeSession_sublist (m : DeviceManager) (sessionId : String) :
    (m.removeSession sessionId).2.sessions.Sublist m.sessions := by
  rw [removeSession]
  cases m.findById sessionId with
  | none => exact List.Sublist.refl _
  | some session => exact List.eraseP_sublist

theorem removeSessionObject_sublist (m : DeviceManager) (session : Option Nat) :
    (m.removeSessionObject session).2.sessions.Sublist m.sessions := by
  cases session with
  | none => exact List.Sublist.refl _
  | some address =>
    rw [removeSessionObject]
    cases m.sessions.find? (·.address = address) with
    | none => exact List.Sublist.refl _
    | some session => exact List.eraseP_sublist

theorem Reached.named {m : DeviceManager} (h : Reached NewDevice m) : m.Named := by
  induction h with
  | new => exact ⟨fun _ hs => (List.not_mem_nil hs).elim, List.Pairwise.nil⟩
  | createSession factory descriptor address _ hmakes ih => exact ih.createSession hmakes
  | discoverAndCreate factory found _ hmakes ih => exact ih.discoverAndCreate found hmakes
  | removeSession sessionId _ ih => exact ih.sublist (removeSession_sublist _ sessionId)
  | removeSessionObject session _ ih => exact ih.sublist (removeSessionObject_sublist _ session)

/-! ## Sessions and their ids -/

/-- The live sessions have pairwise distinct ids; looking up the id of a session gives it,
and removing by its id removes it alone. -/
structure Identified (m : DeviceManager) : Prop where
  distinct : (m.sessions.map ManagedSession.sessionId).Nodup
  found : ∀ s ∈ m.sessions, m.findById s.sessionId = some s
  removed : ∀ s ∈ m.sessions, m.removeSession s.sessionId
    = (.ok (), { sessions := m.sessions.filter (·.address ≠ s.address) })

theorem Named.ids_apart {m : DeviceManager} (h : m.Named) :
    m.sessions.Pairwise fun s t => s.sessionId ≠ t.sessionId := by
  refine h.apart.imp_of_mem ?_
  intro s t hs ht hapart hsame
  rw [h.made s hs, h.made t ht, makeSessionId_eq_iff] at hsame
  rcases hapart.2 with hnone | hkey
  · exact hapart.1 (hsame.2 hnone)
  · exact hkey hsame.1

section Apart

variable {α β γ : Type} [DecidableEq β] [DecidableEq γ] {f : α → β} {g : α → γ} {a : α}
  {l : List α}

/-- Among elements that `f` tells apart, each is the first with its `f`. -/
theorem find?_of_apart (h : l.Pairwise fun b c => f b ≠ f c) (ha : a ∈ l) :
    l.find? (fun b => f b = f a) = some a := by
  induction h with
  | nil => cases ha
  | @cons b l hb _ ih =>
    rcases List.mem_cons.mp ha with rfl | ha
    · exact List.find?_cons_of_pos (by simp)
    · rw [List.find?_cons_of_neg (by simpa using hb a ha)]
      exact ih ha

/-- And what removes the first with its `f` removes it alone. -/
theorem eraseP_of_apart (h : l.Pairwise fun b c => f b ≠ f c)
    (hg : l.Pairwise fun b c => g b ≠ g c) (ha : a ∈ l) :
    l.eraseP (fun b => f b = f a) = l.filter (fun b => g b ≠ g a) := by
  induction h with
  | nil => cases ha
  | @cons b l hb _ ih =>
    obtain ⟨hgb, hgl⟩ := List.pairwise_cons.mp hg
    rcases List.mem_cons.mp ha with rfl | ha
    · rw [List.eraseP_cons_of_pos (by simp), List.filter_cons_of_neg (by simp)]
      refine (List.filter_eq_self.mpr fun c hc => ?_).symm
      simpa using (hgb c hc).symm
    · rw [List.eraseP_cons_of_neg (by simpa using hb a ha),
        List.filter_cons_of_pos (by simpa using hgb a ha), ih hgl ha]

end Apart

theorem Named.identified {m : DeviceManager} (h : m.Named) : m.Identified where
  distinct := List.pairwise_map.mpr h.ids_apart
  found := fun _ hs => find?_of_apart h.ids_apart hs
  removed := by
    intro s hs
    have haddresses : m.sessions.Pairwise fun s t => s.address ≠ t.address :=
      h.apart.imp fun hapart => hapart.1
    have hfound : m.findById s.sessionId = some s := find?_of_apart h.ids_apart hs
    rw [removeSession, hfound]
    simp only [eraseP_of_apart h.ids_apart haddresses hs]

/-- In every run whose sessions are all made for devices that no live session is named
after. -/
theorem reached_identified {m : DeviceManager} (h : Reached NewDevice m) : m.Identified :=
  h.named.identified

/-- A factory that knows one protocol for all devices. -/
def anyDevice : DeviceSessionFactory where
  negotiate _ := .sahara
  findFactory _ := some fun _ => true

def qualcommEdl : DeviceDescriptor :=
  { vendor := .qualcomm, protocolHint := .sahara, usbVid := 0x05c6, usbPid := 0x9008 }

def serialPort : DeviceDescriptor :=
  { vendor := .qualcomm, protocolHint := .sahara, serialPort := "/dev/ttyUSB0" }

/-- Two sessions for different devices. -/
theorem reached_identified_two :
    (((({} : DeviceManager).createSession anyDevice qualcommEdl 1).2).createSession anyDevice
      serialPort 2).2.Identified := by
  refine reached_identified (.createSession _ _ _ (.createSession _ _ _ .new ?_) ?_)
  · intro d hd
    exact ⟨by decide, fun _ s hs => (List.not_mem_nil hs).elim⟩
  · intro d hd
    obtain rfl : serialPort = d := Except.ok.inj hd
    exact ⟨by decide, by decide⟩

/-- Two devices of one model: their sessions share an id, and the id of the second finds
and removes the first. -/
theorem sameModel_shared :
    let first := ManagedSession.construct 1 qualcommEdl
    let second := ManagedSession.construct 2 qualcommEdl
    Reached (fun _ _ => True) ⟨[first, second]⟩ ∧
      DeviceManager.findById ⟨[first, second]⟩ second.sessionId = some first ∧
      (DeviceManager.removeSession ⟨[first, second]⟩ second.sessionId).2 = ⟨[second]⟩ ∧
      ¬ Identified ⟨[first, second]⟩ := by
  intro first second
  have hreached : Reached (fun _ _ => True)
      (((({} : DeviceManager).createSession anyDevice qualcommEdl 1).2).createSession anyDevice
        qualcommEdl 2).2 := by
    refine .createSession _ _ _ (.createSession _ _ _ .new ?_) ?_
    · intro d _
      exact ⟨by decide, trivial⟩
    · intro d _
      exact ⟨by decide, trivial⟩
  refine ⟨hreached, by decide +kernel, by decide +kernel, fun h => ?_⟩
  exact absurd h.distinct (by decide +kernel)

end DeviceManager

end MBootCore.Session
