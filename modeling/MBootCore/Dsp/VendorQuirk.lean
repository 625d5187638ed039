import MBootCore.Support.Multimap
import MBootCore.Session.DeviceManager

/-!
# Dsp — VendorQuirk

`QuirkDatabase` with its indexes and `QuirkResolver` of `dsp/VendorQuirk.cpp`. A pointer to a
quirk is the quirk: no two that are registered have one id.
-/

namespace MBootCore

open Session (Vendor ProtocolType)

inductive BootMode where
  | unknown | bootROM | edl | firehose | fastboot | adb | recovery | downloadMode | preloader
  | brom | normal | download | custom
  deriving DecidableEq, Repr

inductive QuirkSeverity where
  | info | warning | error | critical
  deriving DecidableEq, Repr

namespace QuirkSeverity

/-- The values of the enumeration. -/
def toNat : QuirkSeverity → Nat
  | info => 0
  | warning => 1
  | error => 2
  | critical => 3

end QuirkSeverity

inductive QuirkScope where
  | global | vendor | chipset | protocol | bootMode | transport | loader | profile
  deriving DecidableEq, Repr

structure ChipsetId where
  vendor : String := ""
  family : String := ""
  variant : String := ""
  deriving DecidableEq, Repr

def ChipsetId.toString (id : ChipsetId) : String :=
  id.vendor ++ "/" ++ id.family ++ (if id.variant = "" then "" else "/" ++ id.variant)

/-- The fields that a lookup or the resolver reads. -/
structure VendorQuirk where
  quirkId : String
  severity : QuirkSeverity := .info
  scope : QuirkScope := .global
  vendor : Vendor := .unknown
  chipset : ChipsetId := {}
  protocol : ProtocolType := .unknown
  bootMode : BootMode := .unknown
  enabled : Bool := true
  deriving DecidableEq, Repr

/-- The fields that the resolver reads. -/
structure QuirkPolicy where
  minSeverity : QuirkSeverity := .warning
  applicableVendors : List Vendor := []
  deriving DecidableEq, Repr

/-! ## The database -/

structure QuirkDatabase where
  quirks : List VendorQuirk := []
  byVendor : Multimap Vendor VendorQuirk := []
  byChipset : Multimap String VendorQuirk := []
  byProtocol : Multimap ProtocolType VendorQuirk := []
  byBootMode : Multimap BootMode VendorQuirk := []
  byScope : Multimap QuirkScope VendorQuirk := []
  built : Bool := false
  deriving DecidableEq, Repr

namespace QuirkDatabase

open Multimap

/-- The keys under which the chipset of a quirk is found. -/
def chipsetKeys (quirk : VendorQuirk) : List String :=
  quirk.chipset.toString :: if quirk.chipset.vendor = "" then [] else [quirk.chipset.vendor ++ "//"]

/-- A quirk whose id is taken is not stored; the stored one is indexed once more. -/
def registerQuirk (db : QuirkDatabase) (quirk : VendorQuirk) : QuirkDatabase :=
  let found := db.quirks.find? (·.quirkId = quirk.quirkId)
  let ptr := found.getD quirk
  { db with
    quirks := if found.isSome then db.quirks else db.quirks ++ [quirk]
    byVendor := db.byVendor ++ [ptr.vendor].map (·, ptr)
    byChipset := db.byChipset ++ (chipsetKeys ptr).map (·, ptr)
    byProtocol := db.byProtocol ++ [ptr.protocol].map (·, ptr)
    byBootMode := db.byBootMode ++ [ptr.bootMode].map (·, ptr)
    byScope := db.byScope ++ [ptr.scope].map (·, ptr) }

/-- The quirks of the files, one after another, into a database that is cleared first. -/
def registerAll (db : QuirkDatabase) (loaded : List VendorQuirk) : QuirkDatabase :=
  loaded.foldl registerQuirk { built := db.built }

def scanQuirks (db : QuirkDatabase) (loaded : List VendorQuirk) : QuirkDatabase :=
  { db.registerAll loaded with built := true }

def findByVendor (db : QuirkDatabase) (vendor : Vendor) : List VendorQuirk :=
  if !db.built then [] else equalRange db.byVendor vendor

/-- The condition of the partial matches. -/
def partlyMatches (id : ChipsetId) (quirk : VendorQuirk) : Bool :=
  quirk.chipset.vendor = id.vendor &&
    (id.family = "" || quirk.chipset.family = id.family || quirk.chipset.family = "") &&
    (id.variant = "" || quirk.chipset.variant = id.variant || quirk.chipset.variant = "")

def addPartial (id : ChipsetId) (result : List VendorQuirk) (entry : String × VendorQuirk) :
    List VendorQuirk :=
  if entry.1 = id.toString then result
  else if partlyMatches id entry.2 ∧ entry.2 ∉ result then result ++ [entry.2]
  else result

def findByChipset (db : QuirkDatabase) (id : ChipsetId) : List VendorQuirk :=
  if !db.built then []
  else db.byChipset.foldl (addPartial id) (equalRange db.byChipset id.toString)

def findByProtocol (db : QuirkDatabase) (proto : ProtocolType) : List VendorQuirk :=
  if !db.built then [] else equalRange db.byProtocol proto

def findByBootMode (db : QuirkDatabase) (mode : BootMode) : List VendorQuirk :=
  if !db.built then [] else equalRange db.byBootMode mode

def findByScope (db : QuirkDatabase) (scope : QuirkScope) : List VendorQuirk :=
  if !db.built then [] else equalRange db.byScope scope

end QuirkDatabase

/-! ## The resolver -/

def matchVendor (a b : Vendor) : Bool := a = b || a = .unknown || b = .unknown

def matchChipset (a b : ChipsetId) : Bool :=
  if a.vendor = "" || b.vendor = "" then true
  else if a.vendor ≠ b.vendor then false
  else if a.family ≠ "" && b.family ≠ "" && a.family ≠ b.family then false
  else if a.variant ≠ "" && b.variant ≠ "" && a.variant ≠ b.variant then false
  else true

structure QuirkQuery where
  vendor : Vendor
  chipset : ChipsetId
  protocol : ProtocolType := .unknown
  mode : BootMode := .unknown
  deriving DecidableEq, Repr

structure ResolvedQuirks where
  applicableQuirks : List VendorQuirk := []
  infoMessages : List VendorQuirk := []
  warnings : List VendorQuirk := []
  errors : List VendorQuirk := []
  criticals : List VendorQuirk := []
  hasBlockers : Bool := false
  deriving DecidableEq, Repr

namespace QuirkResolver

open QuirkDatabase

/-- The candidates, from every index. -/
def allQuirks (db : QuirkDatabase) (query : QuirkQuery) : List VendorQuirk :=
  db.findByVendor query.vendor ++ db.findByChipset query.chipset ++
    db.findByProtocol query.protocol ++ db.findByBootMode query.mode ++ db.findByScope .global

def allowedVendor (policy : QuirkPolicy) (q : VendorQuirk) : Bool :=
  policy.applicableVendors.isEmpty ||
    policy.applicableVendors.any fun av => av = q.vendor || q.vendor = .unknown

/-- Each id once, of the quirks that are enabled and allowed. -/
def unique (policy : QuirkPolicy) : List VendorQuirk → List String → List VendorQuirk
  | [], _ => []
  | q :: rest, seen =>
    if !q.enabled then unique policy rest seen
    else if !allowedVendor policy q then unique policy rest seen
    else if q.quirkId ∈ seen then unique policy rest seen
    else q :: unique policy rest (q.quirkId :: seen)

def matchesQuery (policy : QuirkPolicy) (query : QuirkQuery) (q : VendorQuirk) : Bool :=
  !(q.vendor ≠ .unknown && !matchVendor q.vendor query.vendor) &&
    !(q.chipset.vendor ≠ "" && !matchChipset q.chipset query.chipset) &&
    !(q.protocol ≠ .unknown && q.protocol ≠ query.protocol) &&
    !(q.bootMode ≠ .unknown && q.bootMode ≠ query.mode) &&
    !(q.severity.toNat < policy.minSeverity.toNat)

def bySeverity (result : ResolvedQuirks) (q : VendorQuirk) : ResolvedQuirks :=
  match q.severity with
  | .info => { result with infoMessages := result.infoMessages ++ [q] }
  | .warning => { result with warnings := result.warnings ++ [q] }
  | .error => { result with errors := result.errors ++ [q] }
  | .critical => { result with criticals := result.criticals ++ [q], hasBlockers := true }

def addQuirk (policy : QuirkPolicy) (query : QuirkQuery) (result : ResolvedQuirks)
    (q : VendorQuirk) : ResolvedQuirks :=
  if q ∈ result.applicableQuirks then result
  else if matchesQuery policy query q then
    bySeverity { result with applicableQuirks := result.applicableQuirks ++ [q] } q
  else result

def resolve (db : QuirkDatabase) (policy : QuirkPolicy) (query : QuirkQuery) : ResolvedQuirks :=
  (unique policy (allQuirks db query) []).foldl (addQuirk policy query) {}

end QuirkResolver

end MBootCore
