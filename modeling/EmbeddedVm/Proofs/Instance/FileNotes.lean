import EmbeddedVm.Instance.Reload
import EmbeddedVm.Proofs.Instance.Use

/-!
# Loads, replacements and checks with notes

A load or a replacement reads a file, and takes and writes down its signature later, when the module
is in place; a check takes the signature of the watched file and compares. These steps are apart
from each other, and the file may change between any two of them. `FileNotes` says what is noted at
each, beside what the step does. With notes of nothing the operations are those of an instance
(`Request.perform_eq`). Whatever is noted, a replacement keeps every relation that admits the use of
the machine and is kept by its reading, its writing down and the listener.
-/

namespace EmbeddedVm

/-- The time of change of a file and its length. -/
abbrev Signature := Nat × Nat

/-- What is noted when a thread does something about a file. -/
structure FileNotes (S : Type) where
  /-- It has read the file. -/
  read : ThreadId → String → S → S
  /-- It is to compare the signature of the file with this one. -/
  compared : ThreadId → String → Option Signature → S → S
  /-- It has found that the signature is another, and writes it down. -/
  noticed : ThreadId → String → Option Signature → S → S
  /-- It has put a module in place, and writes down its file, if it has one, and the signature. -/
  recorded : ThreadId → Option String → Option Signature → S → S

/-- Nothing is noted. -/
def FileNotes.nothing (S : Type) : FileNotes S where
  read _ _ s := s
  compared _ _ _ s := s
  noticed _ _ _ s := s
  recorded _ _ _ s := s

namespace Instance

variable {η ρ σ : Type}

/-! ## 1. Operations -/

section Noted

variable (notes : FileNotes (World η ρ σ)) (host : Host η ρ σ) (me : ThreadId)

/-- The contents of a file. -/
def readFileNoted (path : String) : Operation η ρ σ Bytes :=
  .mk <| Task.atomically fun w =>
    ((w.files.read path).mapError fun e => .fileNotFound path e.message, notes.read me path w)

/-- Loads a module from the contents of a file. -/
def loadBytesNoted (bytes : Bytes) (path : Option String) : Operation η ρ σ Unit := do
  admitLoad me
  let m ← match Module.load bytes with
    | .ok m => pure m
    | .error e => throw (.invalidBytecode e.message)
  lift (change fun i => { i with core := { i.core with state := .initialized } })
  withVm me <| updateVm (fun e => .moduleLoadFailed e.message) (Vm.load m)
  let signature ← lift (Task.read fun w => path.bind w.files.signature?)
  lift (Task.change fun w => notes.recorded me path signature { w with
    inst := { w.inst with
      core := { w.inst.core with state := .moduleLoaded, loadedFile := path, signature } } })

/-- Replaces the module by what `source` yields. -/
def tryReloadNoted (source : Operation η ρ σ (Bytes × Option String)) :
    Operation η ρ σ PatchReport := do
  admitReload
  if (← lift (look (·.settings.vmOptions.mode))) = .static then throw .reloadNotSupported
  let (bytes, path) ← source
  let m ← match Module.load bytes with
    | .ok m => pure m
    | .error e => throw (.reloadFailed ("invalid bytecode: " ++ e.message))
  let report ← withLoadedVm me <| updateVm patchFailure (Vm.patch m)
  if let some path := path then
    let signature ← lift (Task.read fun w => w.files.signature? path)
    lift (Task.change fun w => notes.recorded me (some path) signature { w with
      inst := { w.inst with core := { w.inst.core with loadedFile := some path, signature } } })
  pure report

/-- The same, on a live instance, with the listener told. -/
def reloadNoted (source : Operation η ρ σ (Bytes × Option String)) : Operation η ρ σ PatchReport :=
  tracked do
    if !(← lift (look (·.core.state.isLive))) then
      throw (.notInitialized "instance not initialized")
    let outcome ← lift (tryReloadNoted notes me source).run
    if let some listener ← lift (look (·.reloadListener)) then
      lift (host.reloaded me listener outcome.isOk)
    .mk (pure outcome)

/-- Replaces the module by that of a file. -/
def reloadFileNoted (path : String) : Operation η ρ σ PatchReport :=
  reloadNoted notes host me do return (← readFileNoted notes me path, some path)

/-- Replaces the module if its file changed, and says whether it did. -/
def checkReloadNoted : Operation η ρ σ Bool := do
  match ← lift (look fun i => watched? i.core) with
  | none => pure false
  | some (path, previous) =>
    let current ← lift (Task.atomically fun w =>
      (w.files.signature? path, notes.compared me path previous w))
    if current.isNone || current == previous then pure false
    else
      lift (Task.change fun w => notes.noticed me path current { w with
        inst := { w.inst with core := { w.inst.core with signature := current } } })
      discard (reloadFileNoted notes host me path)
      pure true

end Noted

/-! ## 2. Requests -/

/-- What a thread asks of an instance that has to do with its file. -/
inductive Request where
  | loadFile (path : String)
  | loadMemory (bytes : Bytes)
  | reloadFile (path : String)
  | reloadMemory (bytes : Bytes)
  | reloadCurrent
  | checkReload

/-- The operation that is asked for. -/
def Request.perform (host : Host η ρ σ) (me : ThreadId) : Request → Act η ρ σ Unit
  | loadFile path => discard (Instance.loadFile me path).run
  | loadMemory bytes => discard (Instance.loadMemory me bytes).run
  | reloadFile path => discard (Instance.reloadFile host me path).run
  | reloadMemory bytes => discard (Instance.reloadMemory host me bytes).run
  | reloadCurrent => discard (Instance.reloadCurrent host me).run
  | checkReload => discard (Instance.checkReload host me).run

/-- The same with notes. -/
def Request.performNoted (notes : FileNotes (World η ρ σ)) (host : Host η ρ σ) (me : ThreadId) :
    Request → Act η ρ σ Unit
  | loadFile path => discard <| (tracked do
      loadBytesNoted notes me (← readFileNoted notes me path) (some path)).run
  | loadMemory bytes => discard (tracked (loadBytesNoted notes me bytes none)).run
  | reloadFile path => discard (reloadFileNoted notes host me path).run
  | reloadMemory bytes => discard (reloadNoted notes host me (pure (bytes, none))).run
  | reloadCurrent => discard <| ExceptT.run do
      match ← lift (look (·.core.loadedFile)) with
      | some path => reloadFileNoted notes host me path
      | none => tracked (throw (.invalidArgument "the module was not loaded from a file"))
  | checkReload => discard (checkReloadNoted notes host me).run

/-- **Notes change nothing**: with notes of nothing, a request is the operation of the instance. -/
theorem Request.perform_eq (host : Host η ρ σ) (me : ThreadId) (r : Request) :
    r.performNoted (.nothing _) host me = r.perform host me := by
  cases r <;> rfl

theorem reloadNoted_nothing (host : Host η ρ σ) (me : ThreadId)
    (source : Operation η ρ σ (Bytes × Option String)) :
    reloadNoted (.nothing _) host me source = reloadWith host me source := rfl

theorem reloadFileNoted_nothing (host : Host η ρ σ) (me : ThreadId) (path : String) :
    reloadFileNoted (.nothing _) host me path = reloadFile host me path := rfl

/-! ## 3. What keeps a relation -/

section Kept

variable {notes : FileNotes (World η ρ σ)} {host : Host η ρ σ} {me : ThreadId}
  {R : World η ρ σ → World η ρ σ → Prop} {source : Operation η ρ σ (Bytes × Option String)}
  (hread : ∀ w path, R w (notes.read me path w)) (hR : ∀ w w', World.Aside me w w' → R w w')
  (hrecorded : ∀ w path signature, R w (notes.recorded me (some path) signature { w with
    inst := { w.inst with core := { w.inst.core with loadedFile := some path, signature } } }))

include hread in
theorem keeps_readFileNoted (path : String) : (readFileNoted notes me path).run.Keeps R := by
  unfold readFileNoted
  rw [ExceptT.run_mk]
  exact Task.keeps_atomically fun w => hread w path

include hR hrecorded

/-- **A replacement is a use of the machine**, but for what it reads and what it writes down. -/
theorem keeps_tryReloadNoted (h : source.run.Keeps R) :
    (tryReloadNoted notes me source).run.Keeps R := by
  have hadmit : (admitReload : Operation η ρ σ Unit).run.Keeps R := keeps_check hR _
  refine hadmit.bindOk fun _ => (keeps_look hR _).lift.bindOk fun mode => ?_
  split
  · exact Task.keeps_throw _
  refine h.bindOk fun read => ?_
  obtain ⟨bytes, path⟩ := read
  dsimp only
  cases Module.load bytes with
  | error e => exact Task.keeps_throw _
  | ok m =>
      refine (keeps_withLoadedVm hR fun _ => Task.keeps_pure _).bindOk fun report => ?_
      cases path with
      | none => exact Task.keeps_ok _
      | some path =>
          refine ((admits_of_aside hR).keeps_read _).lift.bindOk fun signature => ?_
          exact (Task.keeps_atomically fun w => hrecorded w path signature).lift.bindOk
            fun _ => Task.keeps_ok _

variable (hreloaded : ∀ label done, (host.reloaded me label done).Keeps R)

include hreloaded

theorem keeps_reloadNoted (h : source.run.Keeps R) :
    (reloadNoted notes host me source).run.Keeps R := by
  refine keeps_tracked hR ?_
  refine (keeps_look hR _).lift.bindOk fun live => ?_
  split
  · exact Task.keeps_throw _
  refine (keeps_tryReloadNoted hR hrecorded h).lift.bindOk fun outcome => ?_
  refine (keeps_look hR _).lift.bindOk fun listener => ?_
  cases listener with
  | none => exact Task.keeps_pure _
  | some label => exact (hreloaded label _).lift.bindOk fun _ => Task.keeps_pure _

include hread in
theorem keeps_reloadFileNoted (path : String) :
    (reloadFileNoted notes host me path).run.Keeps R :=
  keeps_reloadNoted hR hrecorded hreloaded
    ((keeps_readFileNoted hread path).bindOk fun _ => Task.keeps_ok _)

end Kept

end Instance

end EmbeddedVm
