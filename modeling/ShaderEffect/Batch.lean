import ShaderEffect.Compilation
import ShaderEffect.Registry

namespace ShaderEffect

/-- What became of one file, nothing if its turn never came. -/
structure Batch.Entry where
  path : String
  outcome : Option (Except Problem Result) := none

/-- The results of several files, in their order. -/
structure Batch where
  entries : List Batch.Entry := []
  registry : Registry := {}
  /-- Whether it was stopped before the first file. -/
  cancelled : Bool := false

namespace Batch

/-- Compiles a file and adds its result. -/
def add (o : Options) (files : Files) (b : Batch) (path : String) : Except Fault Batch := do
  let outcome ← compileFile o files path
  let registry :=
    match outcome with
    | .ok r => if r.success then b.registry.merge path r.output else b.registry
    | .error _ => b.registry
  return { b with entries := b.entries ++ [{ path, outcome := some outcome }], registry }

/-- Compiles files one after the other. -/
def compile (o : Options) (files : Files) (paths : List String) : Except Fault Batch :=
  paths.foldlM (add o files) {}

/-- The outcome for files whose compilation was stopped before it began. -/
def stopped (paths : List String) : Batch :=
  { entries := paths.map fun path => { path }, cancelled := true }

/-- Why the files were not all compiled. -/
def failure? (b : Batch) : Option String :=
  if b.cancelled then some "context canceled" else none

end Batch
end ShaderEffect
