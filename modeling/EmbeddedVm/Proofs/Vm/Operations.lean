import EmbeddedVm.Proofs.Host.Endings
import EmbeddedVm.Proofs.Vm.Update

/-!
# Operations on the virtual machine, as data

What a host can do to a virtual machine is one of finitely many operations. As data they can be
quantified over: a statement about every session is one about every list of operations, and the
reachable machines are those that some session leads to, whatever the host functions answer and
whichever pauses are established.
-/

namespace EmbeddedVm.Vm

variable {ν : Type}

/-- **An operation of the host.** -/
inductive Operation (ν : Type) where
  | load (m : Module)
  | registerNative (name : String) (handler : ν)
  | callEntry
  | callFunction (name : String) (args : List Scalar)
  | callStatic (cls method : String) (args : List Scalar)
  | getStatic (cls field : String)
  | setStatic (cls field : String) (v : Scalar)
  | drainCooperative (hint : Option Binary64) (wall : Nat)
  /-- A background read puts its completion on the channel. -/
  | sendRead (id : Nat) (result : Except String String)
  /-- A background read is no longer in flight. -/
  | settleRead
  | drainReads
  | patch (m : Module)
  | collectGarbage
  | gcStats (stalledPauses : Nat)

/-- What an operation answers. -/
inductive Answer where
  /-- Whether it was carried out. -/
  | done (result : Except VmError Unit)
  | value (result : Except VmError Scalar)
  /-- How many callbacks ran. -/
  | ran (result : Except VmError Nat)
  | patched (result : Except VmError PatchReport)
  /-- Whether a requested collection was carried out. -/
  | collected (result : Except VmError Unit)
  | figures (stats : GcStats)

/-- The reactor changes. -/
def withReactor (vm : Vm ν) (reactor : Reactor) : Vm ν :=
  { vm with store := { vm.store with reactor } }

/-- Updates the machine and answers with what the update ends with. -/
def answering {α : Type} (vm : Vm ν) (f : Except VmError α → Answer) (u : Update ν α) :
    Answer × Vm ν :=
  let (result, vm) := vm.attempt u
  (f result, vm)

/-- **Carries out an operation.** -/
def perform (vm : Vm ν) : Operation ν → Run ν (Answer × Vm ν)
  | .load m => .done (vm.answering .done (load m))
  | .registerNative name handler => .done (.done (.ok ()), vm.registerNative name handler)
  | .callEntry => vm.callEntry.bind fun (result, vm) => .done (.value result, vm)
  | .callFunction name args =>
    (vm.callFunction name args).bind fun (result, vm) => .done (.value result, vm)
  | .callStatic cls method args =>
    (vm.callStatic cls method args).bind fun (result, vm) => .done (.value result, vm)
  | .getStatic cls field => .done (.value (vm.getStatic cls field), vm)
  | .setStatic cls field v => .done (vm.answering .done (setStatic cls field v))
  | .drainCooperative hint wall =>
    (vm.drainCooperative hint wall).bind fun (result, vm) => .done (.ran result, vm)
  | .sendRead id result => .done (.done (.ok ()), vm.withReactor (vm.store.reactor.send id result))
  | .settleRead => .done (.done (.ok ()), vm.withReactor vm.store.reactor.settle)
  | .drainReads => vm.drainReads.bind fun (result, vm) => .done (.ran result, vm)
  | .patch m => .done (vm.answering .patched (patch m))
  | .collectGarbage => vm.collectGarbage.bind fun (result, vm) => .done (.collected result, vm)
  | .gcStats stalledPauses => .done (.figures (vm.gcStats stalledPauses), vm)

/-- The two ways in which an update answers. -/
theorem answering_cases {α : Type} {vm vm' : Vm ν} {u : Update ν α} {f : Except VmError α → Answer}
    {answer : Answer} (h : (answer, vm') = vm.answering f u) :
    (∃ a, u.run vm = .ok a vm' ∧ answer = f (.ok a)) ∨
      ∃ e, u.run vm = .error e vm' ∧ answer = f (.error e) := by
  unfold answering attempt at h
  cases hu : u.run vm with
  | ok a vm₁ =>
      rw [hu] at h
      cases h
      exact .inl ⟨a, rfl, rfl⟩
  | error e vm₁ =>
      rw [hu] at h
      cases h
      exact .inr ⟨e, rfl, rfl⟩

/-- An update answers with what it ends with. -/
theorem ends_answering {α : Type} {vm vm' : Vm ν} {u : Update ν α} {result : Except VmError α}
    (h : vm.attempt u = (result, vm')) (f : Except VmError α → Answer) :
    (Run.done (vm.answering f u) : Run ν (Answer × Vm ν)).Ends (f result, vm') := by
  unfold answering
  rw [h]
  exact .done _

/-- An update that is all or nothing: what holds of the machine it leaves behind if it is carried
    out, and held before, holds afterwards. -/
theorem of_answering {α : Type} {P : Vm ν → Prop} {vm vm' : Vm ν} {u : Update ν α}
    {f : Except VmError α → Answer} {answer : Answer} (hu : AllOrNothing u) (hvm : P vm)
    (hnew : ∀ a vm', u.run vm = .ok a vm' → P vm') (h : (answer, vm') = vm.answering f u) :
    P vm' := by
  cases h
  exact of_attempt hu hvm hnew

/-- An operation that answers with what a run ends with: what holds behind the run holds
    afterwards. -/
theorem of_answer {α : Type} {P : Vm ν → Prop} {r : Run ν (α × Vm ν)} {f : α → Answer} {vm' : Vm ν}
    {answer : Answer} (hr : ∀ result vm', r.Ends (result, vm') → P vm')
    (h : (r.bind fun (result, vm) => .done (f result, vm)).Ends (answer, vm')) : P vm' := by
  obtain ⟨⟨result, vm₁⟩, hr', hd⟩ := Run.ends_bind.mp h
  cases Run.ends_done.mp hd
  exact hr _ _ hr'

/-- Carries out operations one after the other, and gathers their answers. -/
def session (vm : Vm ν) : List (Operation ν) → Run ν (List Answer × Vm ν)
  | [] => .done ([], vm)
  | op :: rest =>
    (vm.perform op).bind fun (answer, vm) =>
      (vm.session rest).bind fun (answers, vm) => .done (answer :: answers, vm)

/-- **The machines that some session leads to.** -/
inductive Reachable : Vm ν → Prop where
  | create (options : VmOptions) (wall : Nat) : Reachable (.create options wall)
  | perform {vm vm' : Vm ν} {op : Operation ν} {answer : Answer} (h : Reachable vm)
      (hop : (vm.perform op).Ends (answer, vm')) : Reachable vm'

/-- **What every operation of a list keeps, a session of them keeps.** -/
theorem session_induct {P : Vm ν → Prop} {ops : List (Operation ν)}
    (hkeep : ∀ op ∈ ops, ∀ {vm vm' : Vm ν} {answer : Answer}, P vm →
      (vm.perform op).Ends (answer, vm') → P vm')
    {vm vm' : Vm ν} {answers : List Answer} (h : P vm)
    (hs : (vm.session ops).Ends (answers, vm')) : P vm' := by
  induction ops generalizing vm answers with
  | nil =>
      cases Run.ends_done.mp hs
      exact h
  | cons op rest ih =>
      obtain ⟨⟨answer, vm₁⟩, hop, hs⟩ := Run.ends_bind.mp hs
      obtain ⟨⟨answers', vm₂⟩, hs, hd⟩ := Run.ends_bind.mp hs
      cases Run.ends_done.mp hd
      exact ih (fun op' hop' => hkeep op' (List.mem_cons_of_mem op hop'))
        (hkeep op List.mem_cons_self h hop) hs

/-- A host whose functions answer null and whose pauses are all established. -/
def obliging : Run.Host ν Unit where
  invoke _ _ s := (.ok .null, s)
  pause s := (none, s)

/-- The machine a session leads to against the obliging host; the first one where it leads to
    none. -/
def after (vm : Vm ν) (ops : List (Operation ν)) : Vm ν :=
  match (vm.session ops).against obliging () with
  | some ((_, vm'), _) => vm'
  | none => vm

theorem after_induct {P : Vm ν → Prop} {ops : List (Operation ν)} {vm : Vm ν}
    (hkeep : ∀ op ∈ ops, ∀ {vm vm' : Vm ν} {answer : Answer}, P vm →
      (vm.perform op).Ends (answer, vm') → P vm')
    (h : P vm) : P (vm.after ops) := by
  unfold Vm.after
  split
  · rename_i hs
    exact session_induct hkeep h (Run.ends_of_against hs)
  · exact h

/-- Sessions lead from reachable machines to reachable machines. -/
theorem Reachable.after {vm : Vm ν} (h : Reachable vm) (ops : List (Operation ν)) :
    Reachable (vm.after ops) := after_induct (fun _ _ => Reachable.perform) h

end EmbeddedVm.Vm
