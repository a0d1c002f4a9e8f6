/-!
# Build configuration

* `Level`: how severe a notice is.
* `RegistryScope`: where generic parameter indices are told apart.
* `Config`: the switches of a build, with the presets `Config.lenient` and `Config.parallel`.
-/

namespace ClrImage

/-! ## Severity -/

/-- The severity of a notice, the most severe first. -/
inductive Level
  | error | warn | info | debug | trace
deriving DecidableEq, Repr

namespace Level

/-- The most severe level ranks lowest. -/
def rank : Level → Nat
  | error => 0
  | warn => 1
  | info => 2
  | debug => 3
  | trace => 4

/-- The title in front of a notice. -/
def title : Level → String
  | error => "ERROR"
  | warn => "WARN"
  | info => "INFO"
  | debug => "DEBUG"
  | trace => "TRACE"

/-- The level with a title. -/
def ofTitle? (title : String) : Option Level :=
  [error, warn, info, debug, trace].find? (·.title == title)

/-- Whether notices of level `l` are shown where `threshold` is the least severe level shown. -/
def admits (threshold l : Level) : Bool := l.rank ≤ threshold.rank

end Level

/-! ## Switches -/

/-- Equal indices denote one generic parameter throughout a build, or only below one top-level
type. -/
inductive RegistryScope
  | perRun | perTopLevelType
deriving DecidableEq, Repr

/-- The name of a scope. -/
def RegistryScope.name : RegistryScope → String
  | perRun => "PerRun"
  | perTopLevelType => "PerTopLevelType"

/-- The scope with a name. -/
def RegistryScope.ofName? (name : String) : Option RegistryScope :=
  [perRun, perTopLevelType].find? (·.name == name)

/-- The switches of a build. The default stops at the first failure. -/
structure Config where
  registryScope : RegistryScope := .perRun
  /-- Whether a flagged descriptor without its data is a failure or only skipped. -/
  strictDescriptors : Bool := true
  /-- Whether a pass over the types processes them side by side instead of one after the other. -/
  concurrent : Bool := false
  /-- Whether a type whose members fail is recorded and left out instead of ending the build. -/
  continueOnTypeError : Bool := false
  /-- Whether the pseudo type that holds a module's globals gets no members. -/
  skipModuleType : Bool := true
  /-- The level at which failures are noticed. -/
  failureLevel : Level := .error
deriving DecidableEq, Repr

namespace Config

/-- Goes on over whatever can be left out. -/
def lenient : Config :=
  { strictDescriptors := false, continueOnTypeError := true, failureLevel := .warn }

/-- The default, with types side by side. -/
def parallel : Config := { concurrent := true }

end Config

end ClrImage
