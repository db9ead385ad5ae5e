import Toolpath.Number.Double

/-! # Settings

The initial feeds and the sampling of arcs. Each setting has its range; the first one out of range,
in the order of declaration, is the one complained of.
-/
namespace Toolpath

structure Settings where
  /-- The feed before the first F word, in millimeters per minute. -/
  defaultFeed : Float := 1000
  /-- The rapid feed in program units per minute. -/
  rapidFeed : Float := 24
  /-- The angle between two points shown of an arc, in degrees. -/
  degreesPerSample : Float := 10
  /-- The least number of points shown of an arc. -/
  minSamples : UInt64 := 6
  /-- The distance in millimeters from which the target of an arc is shown by itself. -/
  endpointTolerance : Float := 1e-9
  deriving BEq, DecidableEq, Repr

inductive Setting where
  | defaultFeed
  | rapidFeed
  | degreesPerSample
  | minSamples
  | endpointTolerance
  deriving DecidableEq, Repr

namespace Setting

def all : List Setting :=
  [defaultFeed, rapidFeed, degreesPerSample, minSamples, endpointTolerance]

def key : Setting → String
  | defaultFeed => "default_feed_mm_per_min"
  | rapidFeed => "rapid_feed"
  | degreesPerSample => "arc_degrees_per_sample"
  | minSamples => "arc_min_samples"
  | endpointTolerance => "arc_endpoint_tolerance_mm"

def ofKey? (key : String) : Option Setting := all.find? (·.key == key)

def demand : Setting → String
  | defaultFeed | rapidFeed => "must be a finite value > 0"
  | degreesPerSample => "must be in (0, 360]"
  | minSamples => "must be >= 1"
  | endpointTolerance => "must be >= 0"

def holds (s : Settings) : Setting → Bool
  | defaultFeed => 0 < s.defaultFeed && s.defaultFeed.isFinite
  | rapidFeed => 0 < s.rapidFeed && s.rapidFeed.isFinite
  | degreesPerSample => 0 < s.degreesPerSample && s.degreesPerSample ≤ 360
  | minSamples => s.minSamples != 0
  | endpointTolerance => 0 ≤ s.endpointTolerance

end Setting

def Settings.violation? (s : Settings) : Option Setting :=
  Setting.all.find? fun setting => !setting.holds s

end Toolpath
