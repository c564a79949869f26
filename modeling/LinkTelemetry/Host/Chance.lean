import LinkTelemetry.Source.Simulated

/-!
# Generators for rehearsals

Words that look like chance, made from a seed: a counter with a fixed stride,
whose values are mixed before use. Any other generator does as well.
-/

namespace LinkTelemetry.Host

open Source (Draw Generator Walk maxGrowth)

/-- Spreads every bit of a word over the whole word. -/
def mix (z : UInt64) : UInt64 :=
  let z := (z ^^^ (z >>> 30)) * 0xBF58476D1CE4E5B9
  let z := (z ^^^ (z >>> 27)) * 0x94D049BB133111EB
  z ^^^ (z >>> 31)

/-- The draw that a word stands for. Restarts have the probability 1/500. -/
def drawOf (m : Metric) (word : UInt64) : Draw where
  restarts := word % 500 == 0
  growth := (word >>> 9) % (maxGrowth + 1)
  drift :=
    let share := (word >>> 11).toFloat / 9007199254740991
    (2 * share - 1) * Walk.spread m

/-- The generator of a seed, with a word for each draw. -/
def seeded (seed : UInt64) : Generator where
  next past m := drawOf m (mix (seed + 0x9E3779B97F4A7C15 * .ofNat (past.length + 1)))

/-- The generators of a host. Sources without a seed share the given one. -/
def chance (entropy : UInt64) : Source.Chance where
  seeded := seeded
  unseeded _ := seeded entropy

end LinkTelemetry.Host
