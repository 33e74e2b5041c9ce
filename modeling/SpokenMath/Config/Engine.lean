import SpokenMath.Config.Setting
import SpokenMath.Rule.Rewriting
import SpokenMath.Screening.Limits

/-!
# Configuration of an engine

Everything about an engine that can be configured, with its defaults, and how it is read from the
sections of a configuration.
-/

namespace SpokenMath

/-- How results are cached. -/
structure CacheSettings where
  enabled : Bool := true
  capacity : Nat := 4096
  /-- The time to live of a result, in seconds. -/
  ttlSeconds : Nat := 3600
  /-- Where the cache is kept between runs. -/
  snapshotPath : Option String := none
  deriving DecidableEq, Repr, Inhabited

/-- The configuration of an engine. -/
structure EngineConfig where
  limits : Limits := {}
  cache : CacheSettings := {}
  /-- The budget of one call, in milliseconds. -/
  timeout : Nat := 2000
  rewrite : RewriteLimits := {}
  /-- Note symbols that are used without a meaning. -/
  warnUndefinedSymbols : Bool := true

/-- Reads limits on raw input. -/
def Limits.ofSetting? (s : Setting) : Option Limits := do
  let d : Limits := {}
  let fields ← s.section? ["max_length", "max_depth", "reject_dangerous", "max_risky_commands",
    "max_nested_risky", "max_scripts", "max_script_density", "min_scripts_for_density",
    "max_char_run", "max_command_run", "brace_tolerance"]
  let nat := fun name default => Setting.field fields name default Setting.nat?
  some {
    maxLength := ← nat "max_length" d.maxLength
    maxDepth := ← nat "max_depth" d.maxDepth
    rejectDangerous := ← Setting.field fields "reject_dangerous" d.rejectDangerous Setting.bool?
    maxRiskyCommands := ← nat "max_risky_commands" d.maxRiskyCommands
    maxNestedRisky := ← nat "max_nested_risky" d.maxNestedRisky
    maxScripts := ← nat "max_scripts" d.maxScripts
    maxScriptDensity :=
      ← Setting.field fields "max_script_density" d.maxScriptDensity Setting.float?
    minScriptsForDensity := ← nat "min_scripts_for_density" d.minScriptsForDensity
    maxCharRun := ← nat "max_char_run" d.maxCharRun
    maxCommandRun := ← nat "max_command_run" d.maxCommandRun
    braceTolerance := ← nat "brace_tolerance" d.braceTolerance }

/-- Reads the settings of a cache. -/
def CacheSettings.ofSetting? (s : Setting) : Option CacheSettings := do
  let d : CacheSettings := {}
  let fields ← s.section? ["enabled", "capacity", "ttl_secs", "snapshot_path"]
  some {
    enabled := ← Setting.field fields "enabled" d.enabled Setting.bool?
    capacity := ← Setting.field fields "capacity" d.capacity Setting.nat?
    ttlSeconds := ← Setting.field fields "ttl_secs" d.ttlSeconds Setting.nat?
    snapshotPath :=
      ← Setting.field fields "snapshot_path" d.snapshotPath Setting.optionalText? }

/-- Reads limits on rewriting. -/
def RewriteLimits.ofSetting? (s : Setting) : Option RewriteLimits := do
  let d : RewriteLimits := {}
  let fields ← s.section? ["max_passes", "max_growth_factor"]
  some {
    maxPasses := ← Setting.field fields "max_passes" d.maxPasses Setting.nat?
    maxGrowthFactor := ← Setting.field fields "max_growth_factor" d.maxGrowthFactor Setting.nat? }

/-- Reads the configuration of an engine. -/
def EngineConfig.ofSetting? (s : Setting) : Option EngineConfig := do
  let d : EngineConfig := {}
  let fields ← s.section? ["guard", "cache", "timeout_ms", "rewrite", "warn_undefined_symbols"]
  some {
    limits := ← Setting.field fields "guard" d.limits Limits.ofSetting?
    cache := ← Setting.field fields "cache" d.cache CacheSettings.ofSetting?
    timeout := ← Setting.field fields "timeout_ms" d.timeout Setting.nat?
    rewrite := ← Setting.field fields "rewrite" d.rewrite RewriteLimits.ofSetting?
    warnUndefinedSymbols :=
      ← Setting.field fields "warn_undefined_symbols" d.warnUndefinedSymbols Setting.bool? }

end SpokenMath
