import EmbeddedVm.Cli.Report
import EmbeddedVm.Cli.Usage
import EmbeddedVm.Module.Builder

/-!
# A module to try

`demo` writes a module that greets through the host, and counts frames and quarters of a second.
-/

namespace EmbeddedVm.Cli

/-- Adds one to a static field. -/
def increment (cls : UInt32) (field : UInt16) : List BodyOp :=
  [.emit (.loadStatic cls field), .emit (.pushInt 1), .emit (.simple (.int .add)),
   .emit (.storeStatic cls field), .emit (.simple .retVoid)]

def demoModule? : Option Module := do
  let b : ModuleBuilder := { name := "demo" }
  let (b, main) := b.declare "main"
  let (b, onFrame) := b.declare "on_frame"
  let (b, onTick) := b.declare "on_tick"
  let (b, add) := b.declare "add"
  let (b, demo) := b.cls "Demo"
    [.static ⟨"frames", .int 0⟩, .static ⟨"ticks", .int 0⟩,
     .static ⟨"greeting", .string "Hello from Vessel"⟩, .method ⟨"add", add⟩]
  let b ← b.define main 0 0
    [.emit (.loadStatic demo 2), .callNative "host.print" 1, .emit (.simple .pop),
     .emit (.pushFloat (.ofRatio false 1 4)), .emit (.callback .timerEvery onTick),
     .emit (.simple .pop), .emit (.callback .mainLoop onFrame), .emit (.simple .retVoid)]
  let b ← b.define onFrame 0 0 (increment demo 0)
  let b ← b.define onTick 0 0 (increment demo 1)
  let b ← b.define add 2 2
    [.emit (.loadLocal 0), .emit (.loadLocal 1), .emit (.simple (.int .add)), .emit (.simple .ret)]
  { b with entry := main }.build.toOption

/-- **The command `demo`**: what it prints, and the files afterwards. -/
def demo (files : Files) (output : String) : Except Failure (String × Files) := do
  let some m := demoModule? | throw (.error "demo module failed to build" [])
  let files ← (files.create output m.encode 0).mapError fun e =>
    .error ("failed to write '" ++ output ++ "'") [e.message]
  return (unlines ["Wrote " ++ output, "Try: vessel run " ++ output ++ " --frames 120"], files)

end EmbeddedVm.Cli
