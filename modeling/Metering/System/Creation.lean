import Metering.System

/-!
# Creating metrics

Every metric is created under a category and a name. Instruments and supplied metrics give handles,
gauges, external summaries and caches give nothing. Under a category that is not enabled nothing is
registered. The handle of an instrument is made once for each external name: whoever asks for the
same name again gets the same handle, whatever else he asks for.
-/

namespace Metering.System

open Operation

def register (c : Category) (k : CollectorId) : Operation Unit := do
  let roster ← Roster.register (← system).roster c k
  change fun s => { s with roster := roster }

/-- Adds a collector to the site and registers it under a category. -/
def enroll (c : Category) (x : Collector) : Operation CollectorId := do
  let k ← Site.addCollector x
  register c k
  return k

def declareName (isCounter : Bool) (name : String) : Operation Unit :=
  if isCounter then change fun s => s.remember name else return

def issue (use : HandleUse) (arity : Nat) (target : Option CollectorId) : Operation Handle := do
  return ⟨← Site.issueSerial, use, arity, target⟩

def buildActive (kind : InstrumentKind) (c : Category) (external help : String)
    (labels : List String) : Operation Handle := do
  let instrument ← ofExcept (Instrument.declare kind external help labels (← get).site.clock)
  let k ← enroll c (.instrument instrument)
  issue (.recording kind.childKind) labels.length (some k)

def buildInert (kind : InstrumentKind) (external : String) (arity : Nat) : Operation Handle := do
  Site.report (.inertHandle kind external)
  issue (.recording kind.childKind) arity none

/-- A new handle for an instrument, active where the category takes part. -/
def build (kind : InstrumentKind) (c : Category) (external help : String) (labels : List String) :
    Operation Handle := do
  if (← system).records kind c then buildActive kind c external help labels
  else buildInert kind external labels.length

def buildKept (kind : InstrumentKind) (c : Category) (external help : String)
    (labels : List String) : Operation Handle := do
  let h ← build kind c external help labels
  change fun s => s.keep kind external h
  return h

/-- The handle of an instrument: the one that is kept, or a new one. -/
def obtainHandle (kind : InstrumentKind) (c : Category) (external help : String)
    (labels : List String) : Operation Handle := do
  match ((← system).handles kind).get? external with
  | some h => return h
  | none => buildKept kind c external help labels

def labelled (kind : InstrumentKind) (c : Category) (name help : String) (labels : List String) :
    Operation Handle := do
  -- the name of a counter is remembered whatever becomes of the counter
  declareName (kind == .counter) name
  obtainHandle kind c (c.external name) help labels

/-- Creates an instrument without labels, and gives its only child. -/
def single (kind : InstrumentKind) (c : Category) (name help : String) : Operation Child := do
  let h ← labelled kind c name help []
  h.labels kind.childKind []

def gauge (c : Category) (name help : String) (supplier : SupplierId) : Operation Unit := do
  if (← system).isEnabled c then discard (enroll c (.gauge (c.external name) help supplier))

def provide (kind : SuppliedKind) (c : Category) (name help : String) (labels : List String) :
    Operation Handle := do
  if (← system).isEnabled c then
    let k ← enroll c (.supplied ⟨kind, c.external name, help, labels, ∅⟩)
    issue .supplying labels.length (some k)
  else issue .supplying labels.length none

/-- Creates a supplied metric; its suppliers come later, through the handle. -/
def supplied (kind : SuppliedKind) (c : Category) (name help : String) (labels : List String) :
    Operation Handle := do
  declareName (kind == .counter) name
  provide kind c name help labels

def summary (c : Category) (name help : String) (supplier : SupplierId) : Operation Unit := do
  if (← system).isEnabled c then discard (enroll c (.summary (c.external name) help supplier))

def makeShared (c : Category) : Operation CollectorId := do
  let k ← enroll c (.caches c.stem ∅)
  change fun s => { s with shared := s.shared.put c k }
  return k

/-- The cache collector of a category, registered when it is first needed. -/
def sharedCollector (c : Category) : Operation CollectorId := do
  match (← system).shared.get? c with
  | some k => return k
  | none => makeShared c

def attachTo (k : CollectorId) (name : String) (cache : CacheId) : Action Unit :=
  modify fun s =>
    match s.collector k with
    | .caches stem attached => s.withCollector k (.caches stem (attached.put name cache))
    | _ => s

def attachShared (c : Category) (name : String) (cache : CacheId) : Operation Unit := do
  let k ← sharedCollector c
  -- nothing can fail from here on, so only a cache that is attached takes its name
  change fun s => { s with cacheNames := s.cacheNames.insert name }
  attachTo k name cache

/-- Shows the numbers of a cache. Its name must be new in the whole system. -/
def attachCache (c : Category) (name : String) (cache : CacheId) : Operation Unit := do
  let s ← system
  if s.isEnabled c then
    if name ∈ s.cacheNames then throw (.cacheTaken name) else attachShared c name cache

end Metering.System
