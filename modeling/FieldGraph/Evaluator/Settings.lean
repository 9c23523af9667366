import FieldGraph.Binary64.Arithmetic
import FieldGraph.Capacity
import FieldGraph.Text.Layout

/-!
# Settings and statistics of evaluators
-/

namespace FieldGraph

structure Settings where
  /-- How many closures may be kept; one always may. -/
  limit : Nat := 16
  caching : Bool := true
  guarding : Bool := false
  deriving DecidableEq

namespace Settings

def uncached : Settings := ⟨1, false, false⟩

def guarded : Settings := { guarding := true }

def testing : Settings := ⟨2, true, true⟩

def capacity (s : Settings) : Nat := max 1 s.limit

def debugText (s : Settings) : String :=
  Text.record "EvaluatorConfig"
    [("max_specializations", toString s.limit),
      ("cache_specializations", toString s.caching),
      ("safe_maths", toString s.guarding)]

end Settings

structure Stats where
  hits : Nat := 0
  misses : Nat := 0
  evictions : Nat := 0
  deriving DecidableEq

namespace Stats

def hit (s : Stats) : Stats := { s with hits := s.hits + 1 }

def miss (s : Stats) : Stats := { s with misses := s.misses + 1 }

def evict (s : Stats) : Stats := { s with evictions := s.evictions + 1 }

/-- Hits among all calls, in percent; zero before the first call. -/
def hitRatio (s : Stats) : Calc Binary64 := do
  let total ← Calc.count (s.hits + s.misses)
  if total = 0 then return .zero false
  Binary64.mul (← Binary64.div (.ofRat s.hits) (.ofRat total)) (.ofRat 100)

def debugText (s : Stats) : String :=
  Text.record "EvaluatorStats"
    [("hits", toString s.hits), ("misses", toString s.misses),
      ("evictions", toString s.evictions)]

end Stats
end FieldGraph
