import TextHarvest.Catalog

/-!
# Collectors

A collector gathers the catalogs of many files into one over a run. It is a catalog together with
the operations that a run performs on it.
-/

namespace TextHarvest

/-- What has been gathered since the last flush or reset. -/
structure Collector where
  gathered : Catalog

namespace Collector

def empty : Collector := ⟨.empty⟩

instance : Inhabited Collector := ⟨empty⟩

/-- Adds a catalog; the texts of keys that are already there are replaced. -/
def merge (c : Collector) (part : Catalog) : Collector :=
  ⟨c.gathered.merge part⟩

/-- A copy of what was gathered. -/
def snapshot (c : Collector) : Catalog :=
  c.gathered

/-- Hands out what was gathered and starts afresh. -/
def flush (c : Collector) : Catalog × Collector :=
  (c.gathered, empty)

/-- Forgets what was gathered. -/
def reset (_ : Collector) : Collector :=
  empty

end Collector

/-- One operation on a collector. -/
inductive CollectorStep where
  | merge (catalog : Catalog)
  | snapshot
  | flush
  | reset

namespace Collector

/-- Performs one operation; a snapshot answers its copy, a flush what it handed out. -/
def step (c : Collector) : CollectorStep → Collector × Option Catalog
  | .merge m => (c.merge m, none)
  | .snapshot => (c, some c.snapshot)
  | .flush => (c.flush.2, some c.flush.1)
  | .reset => (c.reset, none)

end Collector

end TextHarvest
