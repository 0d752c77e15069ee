import EmbeddedVm.Proofs.Module.Assembly
import EmbeddedVm.Proofs.Module.Labels
import EmbeddedVm.Proofs.Module.Renumbering

/-!
# Functions that are defined again

A function may be defined several times, and its last body counts: a definition replaces the function
that stood in the place. Two things of an earlier body remain. Its strings and imports stay in the
pools, where they move those of later bodies to other numbers; and if it left a jump without a place
to go to, the builder has noted the function and refuses to build, whatever replaces the body.

So a sequence of actions is compared with the sequence that is left of it without the definitions
that are superseded (`latest`). What the builder notes and interns is read off the actions, one
behind the other (`Logged`). The functions are compared by running both sequences abreast
(`Abreast`): a place agrees in both builders unless a later action defines it anew. In the end no
action is later, so all places agree, and the two builders build the same, up to the numbers of
strings and imports (`build_judges_latest`).
-/

namespace EmbeddedVm

/-! ## 1. Bodies -/

namespace BodyOp

/-- Some jump of a body has a label that the body does not bind. -/
def Dangling (body : List BodyOp) : Prop := ∃ kind l, .jump kind l ∈ body ∧ .bind l ∉ body

/-- An action that names its strings and imports by their texts. The actions that write numbers of
    strings and imports are those that intern them. -/
def ByText : BodyOp → Prop
  | emit i => i.WithoutText
  | _ => True

/-- The strings that an action interns in the body of a function of some name. -/
def strings (name : String) : BodyOp → List String
  | pushText text | throwText text => [text]
  | pushName => [name]
  | _ => []

/-- The imports that an action interns. -/
def natives : BodyOp → List String
  | callNative native _ => [native]
  | _ => []

variable {name : String} {body : List BodyOp}

theorem dangling_iff : Dangling body ↔
    (body.any fun
      | .jump _ l => !body.contains (.bind l)
      | _ => false) = true := by
  rw [List.any_eq_true]
  constructor
  · rintro ⟨kind, l, hjump, hbind⟩
    exact ⟨_, hjump, by simpa using hbind⟩
  · rintro ⟨op, hop, hloose⟩
    cases op with
    | jump kind l => exact ⟨kind, l, hop, by simpa using hloose⟩
    | _ => cases hloose

instance (body : List BodyOp) : Decidable (Dangling body) := decidable_of_iff _ dangling_iff.symm

instance : (op : BodyOp) → Decidable op.ByText
  | emit i => inferInstanceAs (Decidable i.WithoutText)
  | label | bind _ | jump .. | raw _ | pushText _ | pushName | throwText _ | callNative .. =>
    .isTrue trivial

/-- **The pools behind a body** hold what its actions have interned. -/
theorem poolsAfter_eq (p : Pools) : poolsAfter name p body =
    { strings := p.strings.internAll (body.flatMap (strings name))
      natives := p.natives.internAll (body.flatMap natives) } := by
  induction body generalizing p with
  | nil => rfl
  | cons op rest ih =>
      rw [poolsAfter, ih, List.flatMap_cons, List.flatMap_cons, Pool.internAll_append,
        Pool.internAll_append]
      cases op with
      | raw op => cases op <;> rfl
      | _ => rfl

/-- Every jump of a body is emitted. -/
theorem jump_mem_emitted {kind : Jump} {l : Nat} (name : String) (p : Pools) (h : .jump kind l ∈ body) :
    .jump kind l ∈ emitted name p body := by
  induction body generalizing p with
  | nil => cases h
  | cons op rest ih =>
      rcases List.mem_cons.mp h with rfl | h
      · exact List.mem_cons_self
      · exact List.mem_append_right _ (ih _ h)

end BodyOp

/-- Every jump that is emitted has its operand to be filled in. -/
theorem Emission.operand_of_jump {es : List Emission} {kind : Jump} {l : Nat}
    (h : .jump kind l ∈ es) (offset : Nat) : ∃ f ∈ operands offset es, f.2 = l := by
  induction es generalizing offset with
  | nil => cases h
  | cons e rest ih =>
      rcases List.mem_cons.mp h with rfl | h
      · exact ⟨_, List.mem_cons_self, rfl⟩
      · obtain ⟨f, hf, hl⟩ := ih h (offset + e.placeholder.size)
        cases e with
        | plain i => exact ⟨f, hf, hl⟩
        | jump kind' l' => exact ⟨f, List.mem_cons_of_mem _ hf, hl⟩

/-- **A finished draft reports a label exactly if its body dangles.** -/
theorem Draft.Written.finish_dangling {body : List BodyOp} {name : String} {p : Pools} {d : Draft}
    (h : Written body (BodyOp.emitted name p body) d) :
    d.finish.2 = true ↔ BodyOp.Dangling body := by
  constructor
  · intro hmissing
    by_contra hbound
    have hcomplete : d.finish.2 = false := h.complete fun kind l hjump => by
      by_contra hbind
      exact hbound ⟨kind, l, BodyOp.mem_emitted hjump, hbind⟩
    exact Bool.false_ne_true (hcomplete.symm.trans hmissing)
  · rintro ⟨kind, l, hjump, hbind⟩
    obtain ⟨f, hf, rfl⟩ := Emission.operand_of_jump (BodyOp.jump_mem_emitted name p hjump) 0
    have hnone : d.labels[f.2]?.join = none := by
      refine Option.eq_none_iff_forall_ne_some.mpr fun offset hoffset => hbind ?_
      obtain ⟨before, after, hbody, -⟩ := (h.bound f.2 offset).mp hoffset
      exact hbody ▸ List.mem_append_right _ List.mem_cons_self
    unfold Draft.finish
    rw [resolve_missing, List.any_eq_true]
    exact ⟨f, h.fixups ▸ hf, by rw [hnone]; rfl⟩

/-! ## 2. One body in two modules -/

/-- Pools whose entries stand in a module. -/
structure Pools.In (p : Pools) (m : Module) : Prop where
  strings : p.strings.texts <+: m.strings
  natives : p.natives.texts <+: m.natives

namespace Pools

variable {p q : Pools} {m : Module}

theorem Extends.within (h : p.Extends q) (hq : q.In m) : p.In m :=
  ⟨h.strings.trans hq.strings, h.natives.trans hq.natives⟩

theorem string_in {text : String} (h : (p.string text).1.In m) :
    ∃ k, (p.string text).2 = .ofNat k ∧ m.strings[k]? = some text :=
  ⟨_, rfl, getElem?_of_isPrefix h.strings (p.strings.texts_intern_number text)⟩

theorem native_in {name : String} (h : (p.native name).1.In m) :
    ∃ k, (p.native name).2 = .ofNat k ∧ m.natives[k]? = some name :=
  ⟨_, rfl, getElem?_of_isPrefix h.natives (p.natives.texts_intern_number name)⟩

end Pools

namespace BodyOp

variable {name : String} {m m' : Module} {labels labels' : List (Option Nat)}

/-- **An action emits the same in two modules**, with the numbers of each. -/
theorem renumbered_emits {p p' : Pools} {op : BodyOp} (htext : op.ByText)
    (h : (op.emits name p).1.In m) (h' : (op.emits name p').1.In m')
    (hlabels : ∀ l : Nat, labels[l]?.join = labels'[l]?.join) (offset : Nat) :
    List.Forall₂ (Instruction.Renumbered m m') (Emission.fill labels offset (op.emits name p).2)
      (Emission.fill labels' offset (op.emits name p').2) := by
  have hstring : ∀ text, (p.string text).1.In m → (p'.string text).1.In m' →
      Instruction.Renumbered m m' (.pushString (p.string text).2) (.pushString (p'.string text).2) := by
    intro text h h'
    obtain ⟨k, hk, htext⟩ := Pools.string_in h
    obtain ⟨k', hk', htext'⟩ := Pools.string_in h'
    rw [hk, hk']
    exact .string htext htext'
  cases op with
  | label | bind l => exact .nil
  | jump kind l =>
      refine .cons ?_ .nil
      dsimp only [Emission.filled]
      rw [hlabels l]
      exact .same trivial
  | emit i => exact .cons (.same htext) .nil
  | raw op =>
      cases op with
      | simple op => exact .cons (.same trivial) .nil
      | _ => exact .nil
  | pushText text => exact .cons (hstring text h h') .nil
  | pushName => exact .cons (hstring name h h') .nil
  | throwText text => exact .cons (hstring text h h') (.cons (.same trivial) .nil)
  | callNative native argc =>
      obtain ⟨k, hk, hname⟩ := Pools.native_in h
      obtain ⟨k', hk', hname'⟩ := Pools.native_in h'
      refine .cons ?_ .nil
      show Instruction.Renumbered m m' (.callNative (p.native native).2 argc)
        (.callNative (p'.native native).2 argc)
      rw [hk, hk']
      exact .native argc hname hname'

theorem renumbered_emitted {p p' : Pools} {body : List BodyOp} (htext : ∀ op ∈ body, op.ByText)
    (h : (poolsAfter name p body).In m) (h' : (poolsAfter name p' body).In m')
    (hlabels : ∀ l : Nat, labels[l]?.join = labels'[l]?.join) (offset : Nat) :
    List.Forall₂ (Instruction.Renumbered m m') (Emission.fill labels offset (emitted name p body))
      (Emission.fill labels' offset (emitted name p' body)) := by
  induction body generalizing p p' offset with
  | nil => exact .nil
  | cons op rest ih =>
      rw [List.forall_mem_cons] at htext
      have hop := renumbered_emits htext.1 ((extends_poolsAfter _ rest).within h)
        ((extends_poolsAfter _ rest).within h') hlabels offset
      have hlength : (Emission.bytes (op.emits name p).2).length =
          (Emission.bytes (op.emits name p').2).length := by
        rw [← Emission.length_fill _ offset, ← Emission.length_fill _ offset]
        exact Instruction.Renumbered.length_encodeBody hop
      rw [emitted, emitted, Emission.fill_append, Emission.fill_append, hlength]
      exact List.rel_append hop (ih htext.2 h h' _)

end BodyOp

/-- A function that a body defines: its code is what the body emits, with the labels where the body
    binds them. What the body has interned is in the pools. -/
structure Function.WrittenBy (q : Pools) (params locals : UInt16) (body : List BodyOp)
    (f : Function) : Prop where
  paramCount : f.paramCount = params
  localCount : f.localCount = if locals < params then params else locals
  code : ∃ p labels, f.code =
      Instruction.encodeBody (Emission.fill labels 0 (BodyOp.emitted f.name p body)) ∧
    (∀ l offset, labels[l]?.join = some offset ↔ BodyOp.BoundAt body l offset) ∧
    (BodyOp.poolsAfter f.name p body).Extends q

namespace Function

variable {q q' r : Pools} {params locals : UInt16} {body : List BodyOp} {f f' : Function}
  {m m' : Module}

theorem WrittenBy.mono (h : f.WrittenBy q params locals body) (hr : q.Extends r) :
    f.WrittenBy r params locals body where
  paramCount := h.paramCount
  localCount := h.localCount
  code := by
    obtain ⟨p, labels, hcode, hlabels, hq⟩ := h.code
    exact ⟨p, labels, hcode, hlabels, hq.trans hr⟩

/-- **A body defines the same function** whatever the pools were, with the numbers of each module. -/
theorem WrittenBy.renumbered (h : f.WrittenBy q params locals body)
    (h' : f'.WrittenBy q' params locals body) (hname : f.name = f'.name)
    (htext : ∀ op ∈ body, op.ByText) (hq : q.In m) (hq' : q'.In m') : f.Renumbered m m' f' := by
  obtain ⟨p, labels, hcode, hlabels, hp⟩ := h.code
  obtain ⟨p', labels', hcode', hlabels', hp'⟩ := h'.code
  rw [← hname] at hcode' hp'
  refine ⟨hname, h.paramCount.trans h'.paramCount.symm, h.localCount.trans h'.localCount.symm,
    _, _, hcode, hcode', ?_⟩
  refine BodyOp.renumbered_emitted htext (hp.within hq) (hp'.within hq') (fun l => ?_) 0
  exact Option.ext fun offset => (hlabels l offset).trans (hlabels' l offset).symm

end Function

namespace ModuleBuilder

/-! ## 3. Definitions that are superseded -/

/-- An action defines the function in a place. -/
def Action.defines (place : Nat) : Action → Bool
  | define index .. => index.toNat == place
  | _ => false

/-- A definition of a function that later actions define again. -/
def Action.superseded (later : List Action) : Action → Bool
  | define index .. => later.any (·.defines index.toNat)
  | _ => false

/-- **The actions without the definitions that are superseded**: of each function only the last. -/
def latest : List Action → List Action
  | [] => []
  | a :: rest => if a.superseded rest then latest rest else a :: latest rest

/-- The definitions that are superseded. -/
def earlier : List Action → List Action
  | [] => []
  | a :: rest => if a.superseded rest then a :: earlier rest else earlier rest

theorem mem_iff_latest_or_earlier {actions : List Action} {a : Action} :
    a ∈ actions ↔ a ∈ latest actions ∨ a ∈ earlier actions := by
  induction actions with
  | nil => simp [latest, earlier]
  | cons a' rest ih =>
      unfold latest earlier
      split <;> simp only [List.mem_cons, ih] <;> tauto

/-- What is read off the superseded definitions can be left out where it is nothing. -/
theorem flatMap_latest {α : Type} {g : Action → List α} {actions : List Action}
    (h : ∀ a ∈ earlier actions, g a = []) : (latest actions).flatMap g = actions.flatMap g := by
  induction actions with
  | nil => rfl
  | cons a rest ih =>
      unfold earlier at h
      unfold latest
      split at h
      · rename_i hsuperseded
        rw [List.forall_mem_cons] at h
        rw [if_pos hsuperseded, List.flatMap_cons, h.1, List.nil_append, ih h.2]
      · rename_i hsuperseded
        rw [if_neg hsuperseded, List.flatMap_cons, List.flatMap_cons, ih h]

/-- A definition with a jump whose label the body does not bind. -/
def Action.Dangling : Action → Prop
  | define _ _ _ body => BodyOp.Dangling body
  | _ => False

/-- An action that names strings and imports by their texts. -/
def Action.ByText : Action → Prop
  | define _ _ _ body => ∀ op ∈ body, op.ByText
  | _ => True

instance : (a : Action) → Decidable a.Dangling
  | .define _ _ _ body => inferInstanceAs (Decidable (BodyOp.Dangling body))
  | .declare _ | .cls .. | .string _ | .native _ | .entry _ | .flags _ => .isFalse id

instance : (a : Action) → Decidable a.ByText
  | .define _ _ _ body => inferInstanceAs (Decidable (∀ op ∈ body, op.ByText))
  | .declare _ | .cls .. | .string _ | .native _ | .entry _ | .flags _ => .isTrue trivial

/-! ## 4. What a builder notes -/

/-- The function that is noted for an action, where functions have these names. -/
def Action.unbound (names : List String) : Action → List String
  | define index _ _ body => if BodyOp.Dangling body then [names.getD index.toNat ""] else []
  | _ => []

/-- The strings that an action interns, where functions have these names. -/
def Action.strings (names : List String) : Action → List String
  | define index _ _ body => body.flatMap (BodyOp.strings (names.getD index.toNat ""))
  | string text => [text]
  | _ => []

/-- The imports that an action interns. -/
def Action.natives : Action → List String
  | define _ _ _ body => body.flatMap BodyOp.natives
  | native name => [name]
  | _ => []

/-- A function is noted exactly for a definition that dangles. -/
theorem Action.unbound_ne_nil {names : List String} {a : Action} :
    a.unbound names ≠ [] ↔ a.Dangling := by
  cases a with
  | define index params locals body =>
      unfold unbound Dangling
      split <;> simp [*]
  | _ => simp [unbound, Dangling]

theorem flatMap_unbound_ne_nil {names : List String} {actions : List Action} :
    actions.flatMap (·.unbound names) ≠ [] ↔ ∃ a ∈ actions, a.Dangling := by
  rw [ne_eq, List.flatMap_eq_nil_iff]
  push Not
  exact exists_congr fun a => and_congr_right fun _ => Action.unbound_ne_nil

/-- **What a builder has gained** by actions, read off them. -/
structure Logged (names : List String) (actions : List Action) (b c : ModuleBuilder) : Prop where
  unbound : c.unbound = b.unbound ++ actions.flatMap (·.unbound names)
  strings : c.pools.strings = b.pools.strings.internAll (actions.flatMap (·.strings names))
  natives : c.pools.natives = b.pools.natives.internAll (actions.flatMap Action.natives)

section Steps

variable {b b' c : ModuleBuilder} {names : List String} {index : UInt32} {params locals : UInt16}
  {body : List BodyOp} {a : Action} {number : Option Nat} {actions rest : List Action}

/-- **What a definition does** to a builder that declares the function. -/
theorem exists_define (params locals : UInt16) {name : String} {slot : Option Function}
    (hdeclared : b.functions[index.toNat]? = some (name, slot))
    (hbody : BodyOp.AllAdmissible 0 body) :
    ∃ f : Function, f.name = name ∧
      f.WrittenBy (BodyOp.poolsAfter name b.pools body) params locals body ∧
      b.define index params locals body = some { b with
        pools := BodyOp.poolsAfter name b.pools body
        functions := b.functions.set index.toNat (name, some f)
        unbound := b.unbound ++ if BodyOp.Dangling body then [name] else [] } := by
  obtain ⟨d, hd, hwritten⟩ := Draft.written_empty.applyAll name b.pools hbody
  rw [List.nil_append, List.nil_append] at hwritten
  refine ⟨⟨name, params, if locals < params then params else locals, d.finish.1⟩, rfl,
    ⟨rfl, rfl, _, d.labels, hwritten.finish, hwritten.bound, .refl _⟩, ?_⟩
  rw [define_eq hdeclared hd]
  by_cases hdangling : BodyOp.Dangling body
  · rw [if_pos hdangling, if_pos (hwritten.finish_dangling.mpr hdangling)]
  · rw [if_neg hdangling, if_neg (hdangling ∘ hwritten.finish_dangling.mp), List.append_nil]

/-- **What a definition has done** that was carried out. -/
theorem define_some (h : b.define index params locals body = some c) :
    ∃ name slot, ∃ f : Function, b.functions[index.toNat]? = some (name, slot) ∧
      BodyOp.AllAdmissible 0 body ∧ f.name = name ∧
      f.WrittenBy (BodyOp.poolsAfter name b.pools body) params locals body ∧
      c = { b with
        pools := BodyOp.poolsAfter name b.pools body
        functions := b.functions.set index.toNat (name, some f)
        unbound := b.unbound ++ if BodyOp.Dangling body then [name] else [] } := by
  obtain ⟨name, slot, d, -, hdeclared, hd, -⟩ := define_eq_some h
  have hbody := Draft.allAdmissible_of_applyAll hd
  obtain ⟨f, hname, hf, hdefine⟩ := exists_define params locals hdeclared hbody
  exact ⟨name, slot, f, hdeclared, hbody, hname, hf, Option.some.inj (h.symm.trans hdefine)⟩

/-- A definition changes no name. -/
theorem names_set {name : String} {slot : Option Function} {i : Nat}
    (hdeclared : b.functions[i]? = some (name, slot)) (f : Function) :
    (b.functions.set i (name, some f)).map (·.1) = b.functions.map (·.1) :=
  map_set_of_key hdeclared rfl

/-- One action, if functions have the names they have behind it. -/
theorem logged_act (h : b.act a = some (c, number)) (hnames : c.functions.map (·.1) <+: names) :
    Logged names [a] b c := by
  have hgrows := grows_act h
  cases a with
  | define index params locals body =>
      obtain ⟨c, hc, heq⟩ := Option.map_eq_some_iff.mp h
      cases heq
      obtain ⟨name, slot, f, hdeclared, -, -, -, rfl⟩ := define_some hc
      have hname : names.getD index.toNat "" = name := by
        have hplace : (b.functions.map (·.1))[index.toNat]? = some name := by
          rw [List.getElem?_map, hdeclared]
          rfl
        rw [List.getD_eq_getElem?_getD,
          getElem?_of_isPrefix (hgrows.functions.trans hnames) hplace]
        rfl
      constructor
      · rw [List.flatMap_singleton, Action.unbound, hname]
      · rw [List.flatMap_singleton, Action.strings, hname]
        exact congrArg Pools.strings (BodyOp.poolsAfter_eq b.pools)
      · rw [List.flatMap_singleton, Action.natives]
        exact congrArg Pools.natives (BodyOp.poolsAfter_eq b.pools)
  | declare name =>
      cases h
      unfold declare
      split <;> exact ⟨(List.append_nil _).symm, rfl, rfl⟩
  | cls name members =>
      cases h
      unfold cls
      split <;> exact ⟨(List.append_nil _).symm, rfl, rfl⟩
  | string text | native name | entry index | flags word =>
      cases h
      exact ⟨(List.append_nil _).symm, rfl, rfl⟩

/-- **All actions**, if functions have the names they have in the end. -/
theorem logged_actAll (h : b.actAll actions = some c) (hnames : c.functions.map (·.1) <+: names) :
    Logged names actions b c := by
  induction actions generalizing b with
  | nil => cases h; exact ⟨(List.append_nil _).symm, rfl, rfl⟩
  | cons a rest ih =>
      obtain ⟨⟨b₁, number⟩, hb₁, hrest⟩ := Option.bind_eq_some_iff.mp h
      have hfirst := logged_act hb₁ ((grows_actAll hrest).functions.trans hnames)
      have hlater := ih hrest
      rw [← List.singleton_append]
      constructor
      · rw [hlater.unbound, hfirst.unbound, List.append_assoc, List.flatMap_append]
      · rw [hlater.strings, hfirst.strings, List.flatMap_append, Pool.internAll_append]
      · rw [hlater.natives, hfirst.natives, List.flatMap_append, Pool.internAll_append]

/-! ## 5. Two builders abreast -/

/-- A place of a function in two builders with their pools: it is empty in both, or one body has
    defined the function in both. -/
inductive Beside (q q' : Pools) : Option Function → Option Function → Prop where
  | undefined : Beside q q' none none
  | defined {f f' : Function} {params locals : UInt16} {body : List BodyOp} (hname : f.name = f'.name)
      (htext : ∀ op ∈ body, op.ByText) (h : f.WrittenBy q params locals body)
      (h' : f'.WrittenBy q' params locals body) : Beside q q' (some f) (some f')

theorem Beside.mono {q q' r r' : Pools} {slot slot' : Option Function}
    (h : Beside q q' slot slot') (hr : q.Extends r) (hr' : q'.Extends r') :
    Beside r r' slot slot' := by
  cases h with
  | undefined => exact .undefined
  | defined hname htext h h' => exact .defined hname htext (h.mono hr) (h'.mono hr')

/-- **Two builders abreast**, before actions of which the second is spared some: they have the same
    names and classes, and a place agrees unless these actions define it anew. -/
structure Abreast (later : List Action) (b b' : ModuleBuilder) : Prop where
  name : b.name = b'.name
  flags : b.flags = b'.flags
  entry : b.entry = b'.entry
  classes : b.classes = b'.classes
  names : b.functions.map (·.1) = b'.functions.map (·.1)
  places : ∀ (i : Nat) (p p' : String × Option Function), later.any (·.defines i) = false →
    b.functions[i]? = some p → b'.functions[i]? = some p' → Beside b.pools b'.pools p.2 p'.2

/-- What is declared in one of two builders is declared in the other. -/
theorem Abreast.declared (h : Abreast rest b b') {i : Nat} {name : String} {slot : Option Function}
    (hi : b.functions[i]? = some (name, slot)) : ∃ slot', b'.functions[i]? = some (name, slot') := by
  have hname : (b'.functions.map (·.1))[i]? = some name := by
    rw [← h.names, List.getElem?_map, hi]
    rfl
  rw [List.getElem?_map] at hname
  obtain ⟨⟨_, slot'⟩, hslot, rfl⟩ := Option.map_eq_some_iff.mp hname
  exact ⟨slot', hslot⟩

/-- A definition comes, and the other places agree as before. -/
theorem Abreast.beside_of_ne (h : Abreast (.define index params locals body :: rest) b b') {i : Nat}
    {p p' : String × Option Function} (hplace : index.toNat ≠ i)
    (hi : rest.any (·.defines i) = false) (hp : b.functions[i]? = some p)
    (hp' : b'.functions[i]? = some p') : Beside b.pools b'.pools p.2 p'.2 := by
  refine h.places i p p' ?_ hp hp'
  rw [List.any_cons, hi, Bool.or_false]
  exact beq_eq_false_iff_ne.mpr hplace

/-- **A definition that only the first builder carries out** leaves them abreast if a later action
    supersedes it. -/
theorem Abreast.superseded (h : Abreast (a :: rest) b b') (ha : a.superseded rest = true)
    (hb : b.act a = some (c, number)) : Abreast rest c b' := by
  cases a with
  | define index params locals body =>
      obtain ⟨c, hc, heq⟩ := Option.map_eq_some_iff.mp hb
      cases heq
      have hgrows := grows_define hc
      obtain ⟨name, slot, f, hdeclared, -, -, -, rfl⟩ := define_some hc
      refine ⟨h.name, h.flags, h.entry, h.classes, (names_set hdeclared f).trans h.names, ?_⟩
      intro i p p' hi hp hp'
      have hplace : index.toNat ≠ i := by
        rintro rfl
        exact absurd (hi.symm.trans ha) Bool.false_ne_true
      have hp : b.functions[i]? = some p := by rw [← List.getElem?_set_ne hplace]; exact hp
      exact (h.beside_of_ne hplace hi hp hp').mono hgrows.pools (.refl _)
  | _ => cases ha

/-- A definition that both builders carry out. -/
theorem Abreast.define (h : Abreast (.define index params locals body :: rest) b b')
    (htext : ∀ op ∈ body, op.ByText) (hc : b.define index params locals body = some c) :
    ∃ c', b'.define index params locals body = some c' ∧ Abreast rest c c' := by
  obtain ⟨name, slot, f, hdeclared, hbody, hname, hf, rfl⟩ := define_some hc
  obtain ⟨slot', hdeclared'⟩ := h.declared hdeclared
  obtain ⟨f', hname', hf', hdefine'⟩ := exists_define params locals hdeclared' hbody
  refine ⟨_, hdefine', h.name, h.flags, h.entry, h.classes,
    (names_set hdeclared f).trans (h.names.trans (names_set hdeclared' f').symm), ?_⟩
  intro i p p' hi hp hp'
  dsimp only at hp hp'
  by_cases hplace : index.toNat = i
  · subst hplace
    rw [List.getElem?_set_self (List.getElem?_eq_some_iff.mp hdeclared).1] at hp
    rw [List.getElem?_set_self (List.getElem?_eq_some_iff.mp hdeclared').1] at hp'
    cases hp
    cases hp'
    exact .defined (hname.trans hname'.symm) htext hf hf'
  · rw [List.getElem?_set_ne hplace] at hp hp'
    exact (h.beside_of_ne hplace hi hp hp').mono (BodyOp.extends_poolsAfter _ body)
      (BodyOp.extends_poolsAfter _ body)

/-- A declaration finds the same names in both builders. -/
theorem Abreast.declare {name : String} (h : Abreast (.declare name :: rest) b b') :
    Abreast rest (b.declare name).1 (b'.declare name).1 := by
  have hfind : ∀ l : List (String × Option Function),
      l.findIdx? (·.1 == name) = (l.map (·.1)).findIdx? (· == name) := fun _ => by
    rw [List.findIdx?_map]
    rfl
  have hlength : b.functions.length = b'.functions.length := by
    rw [← List.length_map, h.names, List.length_map]
  unfold ModuleBuilder.declare
  rw [hfind, hfind, h.names]
  split
  · exact ⟨h.name, h.flags, h.entry, h.classes, h.names, h.places⟩
  · refine ⟨h.name, h.flags, h.entry, h.classes, ?_, ?_⟩
    · rw [List.map_append, List.map_append, h.names]
    · intro i p p' hi hp hp'
      dsimp only at hp hp'
      rcases Nat.lt_or_ge i b.functions.length with hlt | hge
      · rw [List.getElem?_append_left hlt] at hp
        rw [List.getElem?_append_left (hlength ▸ hlt)] at hp'
        exact h.places i p p' hi hp hp'
      · rw [List.getElem?_append_right hge] at hp
        rw [List.getElem?_append_right (hlength ▸ hge)] at hp'
        rw [List.mem_singleton.mp (List.mem_of_getElem? hp),
          List.mem_singleton.mp (List.mem_of_getElem? hp')]
        exact .undefined

/-- **An action that both builders carry out** leaves them abreast. -/
theorem Abreast.act (h : Abreast (a :: rest) b b') (htext : a.ByText)
    (hb : b.act a = some (c, number)) :
    ∃ c' number', b'.act a = some (c', number') ∧ Abreast rest c c' := by
  cases a with
  | define index params locals body =>
      obtain ⟨c, hc, heq⟩ := Option.map_eq_some_iff.mp hb
      cases heq
      obtain ⟨c', hc', habreast⟩ := h.define htext hc
      exact ⟨c', none, Option.map_eq_some_iff.mpr ⟨c', hc', rfl⟩, habreast⟩
  | declare name => cases hb; exact ⟨_, _, rfl, h.declare⟩
  | cls name members =>
      cases hb
      refine ⟨_, _, rfl, ?_⟩
      unfold ModuleBuilder.cls
      rw [h.classes]
      split
      · exact ⟨h.name, h.flags, h.entry, rfl, h.names, h.places⟩
      · exact ⟨h.name, h.flags, h.entry, rfl, h.names, h.places⟩
  | string text =>
      cases hb
      exact ⟨_, _, rfl, h.name, h.flags, h.entry, h.classes, h.names, fun i p p' hi hp hp' =>
        (h.places i p p' hi hp hp').mono (b.pools.extends_string text)
          (b'.pools.extends_string text)⟩
  | native name =>
      cases hb
      exact ⟨_, _, rfl, h.name, h.flags, h.entry, h.classes, h.names, fun i p p' hi hp hp' =>
        (h.places i p p' hi hp hp').mono (b.pools.extends_native name)
          (b'.pools.extends_native name)⟩
  | entry index =>
      cases hb
      exact ⟨_, _, rfl, h.name, h.flags, rfl, h.classes, h.names, h.places⟩
  | flags word =>
      cases hb
      exact ⟨_, _, rfl, h.name, rfl, h.entry, h.classes, h.names, h.places⟩

/-- **A whole run**: the second builder needs only the latest definitions. -/
theorem Abreast.actAll (h : Abreast actions b b') (htext : ∀ a ∈ actions, a.ByText)
    (hb : b.actAll actions = some c) :
    ∃ c', b'.actAll (latest actions) = some c' ∧ Abreast [] c c' := by
  induction actions generalizing b b' with
  | nil => cases hb; exact ⟨b', rfl, h⟩
  | cons a rest ih =>
      rw [List.forall_mem_cons] at htext
      obtain ⟨⟨b₁, number⟩, hb₁, hrest⟩ := Option.bind_eq_some_iff.mp hb
      unfold latest
      split
      · rename_i ha
        exact ih (h.superseded ha hb₁) htext.2 hrest
      · obtain ⟨b₁', number', hb₁', habreast⟩ := h.act htext.1 hb₁
        obtain ⟨c', hc', hend⟩ := ih habreast htext.2 hrest
        refine ⟨c', ?_, hend⟩
        unfold ModuleBuilder.actAll
        rw [hb₁']
        exact hc'

end Steps

/-! ## 6. What they build -/

/-- Two modules of which the first has more strings and imports, those of superseded bodies. -/
structure SameBut (superseded : List Action) (m m' : Module) : Prop where
  renumbered : m.Renumbered m'
  strings : ∀ text, text ∈ m.strings ↔
    text ∈ m'.strings ∨ ∃ a ∈ superseded, text ∈ a.strings (m.functions.map (·.name))
  natives : ∀ name, name ∈ m.natives ↔ name ∈ m'.natives ∨ ∃ a ∈ superseded, name ∈ a.natives

/-- The functions of two builders abreast, or the same name of one that is not defined. -/
theorem both_definitions {q q' : Pools} {l l' : List (String × Option Function)}
    (h : List.Forall₂ (fun p p' => p.1 = p'.1 ∧ Beside q q' p.2 p'.2) l l') :
    Checks.Both (List.Forall₂ fun f f' => Beside q q' (some f) (some f')) (definitions l)
      (definitions l') := by
  induction h with
  | nil => exact .ok .nil
  | @cons p p' _ _ hp _ ih =>
      obtain ⟨name, slot⟩ := p
      obtain ⟨name', slot'⟩ := p'
      obtain ⟨rfl, hslot⟩ := hp
      cases hslot with
      | undefined => exact .error _
      | defined hname htext h h' =>
          exact ih.bind fun fs fs' hfs => .ok (.cons (.defined hname htext h h') hfs)

/-- The tables of two builders abreast. -/
theorem Abreast.forall₂ {b b' : ModuleBuilder} (h : Abreast [] b b') :
    List.Forall₂ (fun p p' => p.1 = p'.1 ∧ Beside b.pools b'.pools p.2 p'.2) b.functions
      b'.functions := by
  have hlength : b.functions.length = b'.functions.length := by
    rw [← List.length_map, h.names, List.length_map]
  refine List.forall₂_iff_get.mpr ⟨hlength, fun i hi hi' => ⟨?_, ?_⟩⟩
  · have hname := congrArg (·[i]?) h.names
    simpa [hi, hi'] using hname
  · exact h.places i _ _ rfl (List.getElem?_eq_getElem hi) (List.getElem?_eq_getElem hi')

/-- The module of a builder with some functions. -/
def moduleOf (b : ModuleBuilder) (functions : List Function) : Module :=
  { flags := b.flags, name := b.name, strings := b.pools.strings.texts, functions
    classes := b.classes, natives := b.pools.natives.texts, entry := b.entry }

/-- What is built if no function is noted. -/
theorem build_of_unbound {b : ModuleBuilder} (h : b.unbound = []) :
    b.build = definitions b.functions >>= fun fs =>
      (b.moduleOf fs).verify.mapError .verify >>= fun _ => .ok (b.moduleOf fs) := by
  unfold build
  rw [h]
  rfl

/-- The only way to be without definitions. -/
theorem definitions_error {l : List (String × Option Function)} {e : BuildError}
    (h : definitions l = .error e) : ∃ name, e = .undefinedFunction name := by
  induction l with
  | nil => cases h
  | cons entry rest ih =>
      obtain ⟨name, slot⟩ := entry
      cases slot with
      | none => cases h; exact ⟨name, rfl⟩
      | some f =>
          unfold definitions at h
          cases hrest : definitions rest with
          | error e' => rw [hrest] at h; cases h; exact ih hrest
          | ok fs => rw [hrest] at h; cases h

/-- **A build fails for a label exactly if a function is noted.** -/
theorem build_unboundLabel {b : ModuleBuilder} :
    (∃ f, b.build = .error (.unboundLabel f)) ↔ b.unbound ≠ [] := by
  constructor
  · rintro ⟨f, hf⟩ hnone
    rw [build_of_unbound hnone] at hf
    cases hdefined : definitions b.functions with
    | error e =>
        rw [hdefined] at hf
        cases hf
        obtain ⟨name, hname⟩ := definitions_error hdefined
        cases hname
    | ok fs =>
        rw [hdefined] at hf
        change (b.moduleOf fs).verify.mapError BuildError.verify >>= _ = _ at hf
        cases hverify : (b.moduleOf fs).verify with
        | error e => rw [hverify] at hf; cases hf
        | ok u => rw [hverify] at hf; cases hf
  · intro h
    obtain ⟨f, rest, hf⟩ := List.exists_cons_of_ne_nil h
    refine ⟨f, ?_⟩
    unfold build
    rw [hf]

/-- **Two builders abreast build the same module**, or fail with the same error, if they have noted
    the same functions. -/
theorem Abreast.build {b b' : ModuleBuilder} (h : Abreast [] b b')
    (hunbound : b.unbound = b'.unbound) : Checks.Both Module.Renumbered b.build b'.build := by
  cases hnoted : b.unbound with
  | cons f rest =>
      unfold ModuleBuilder.build
      rw [← hunbound, hnoted]
      exact .error _
  | nil =>
      rw [build_of_unbound hnoted, build_of_unbound (hunbound ▸ hnoted)]
      refine (both_definitions h.forall₂).bind fun fs fs' hfs => ?_
      have hsame : (b.moduleOf fs).Renumbered (b'.moduleOf fs') := by
        refine ⟨h.flags, h.name, hfs.imp fun f f' hf => ?_, h.classes, h.entry⟩
        cases hf with
        | defined hname htext hf hf' =>
            exact hf.renumbered hf' hname htext ⟨List.prefix_rfl, List.prefix_rfl⟩
              ⟨List.prefix_rfl, List.prefix_rfl⟩
      rw [Module.verify_renumbered hsame]
      exact Checks.Both.bind_eq fun _ => .ok hsame

/-- What all actions intern is what the latest ones intern, and what the superseded ones do. -/
theorem mem_interned_iff {p : Pool} {g : Action → List String} {actions : List Action}
    {text : String} : text ∈ (p.internAll (actions.flatMap g)).texts ↔
      text ∈ (p.internAll ((latest actions).flatMap g)).texts ∨
        ∃ a ∈ earlier actions, text ∈ g a := by
  rw [Pool.mem_texts_internAll, Pool.mem_texts_internAll, or_assoc, List.mem_flatMap,
    List.mem_flatMap, ← exists_or]
  refine or_congr_right (exists_congr fun a => ?_)
  rw [mem_iff_latest_or_earlier, or_and_right]

/-- **A build judges every body that was ever written, and makes the module of the latest ones.**
    Let a new builder carry out actions, where bodies name strings and imports by their texts. The
    build fails for a label exactly if some definition, superseded or not, has a jump to a label
    that its body does not bind. If no superseded definition has one, it fails for a label exactly
    if the latest definition of some function has one; and whatever comes of it is what would have
    come of the latest definitions alone: the same error, or the same module up to the strings and
    imports that the superseded bodies have added. -/
theorem build_judges_latest (name : String) (actions : List Action) (b : ModuleBuilder)
    (htext : ∀ a ∈ actions, a.ByText) (hrun : ({ name } : ModuleBuilder).actAll actions = some b) :
    ((∃ f, b.build = .error (.unboundLabel f)) ↔ ∃ a ∈ actions, a.Dangling) ∧
      ∃ b', ({ name } : ModuleBuilder).actAll (latest actions) = some b' ∧
        ((∀ a ∈ earlier actions, ¬ a.Dangling) →
          ((∃ f, b.build = .error (.unboundLabel f)) ↔ ∃ a ∈ latest actions, a.Dangling) ∧
          Checks.Both (SameBut (earlier actions)) b.build b'.build) := by
  have hlogged := logged_actAll hrun List.prefix_rfl
  have hfails : (∃ f, b.build = .error (.unboundLabel f)) ↔ ∃ a ∈ actions, a.Dangling := by
    rw [build_unboundLabel, hlogged.unbound]
    exact flatMap_unbound_ne_nil
  have hstart : Abreast actions { name } { name } :=
    ⟨rfl, rfl, rfl, rfl, rfl, fun i p p' _ hp _ => nomatch hp⟩
  obtain ⟨b', hrun', habreast⟩ := hstart.actAll htext hrun
  refine ⟨hfails, b', hrun', fun hearlier => ⟨?_, ?_⟩⟩
  · rw [hfails]
    refine exists_congr fun a => ?_
    rw [mem_iff_latest_or_earlier]
    exact ⟨fun h => ⟨h.1.resolve_right fun ha => hearlier a ha h.2, h.2⟩,
      fun h => ⟨.inl h.1, h.2⟩⟩
  · have hlogged' := logged_actAll hrun' (isPrefix_of_eq habreast.names.symm)
    have hunbound : b.unbound = b'.unbound := by
      rw [hlogged.unbound, hlogged'.unbound, flatMap_latest]
      exact fun a ha => not_not.mp (hearlier a ha ∘ Action.unbound_ne_nil.mp)
    have hnames := namesKept_actAll hrun fun _ _ hf => nomatch hf
    refine (habreast.build hunbound).imp_ok fun m m' hm hm' hsame => ?_
    obtain ⟨hstrings, hnatives, -, hdefined, -⟩ := build_eq_ok hm
    obtain ⟨hstrings', hnatives', -⟩ := build_eq_ok hm'
    refine ⟨hsame, fun text => ?_, fun name => ?_⟩
    · rw [hstrings, hstrings', hlogged.strings, hlogged'.strings, map_name_definitions hdefined hnames]
      exact mem_interned_iff
    · rw [hnatives, hnatives', hlogged.natives, hlogged'.natives]
      exact mem_interned_iff

/-- A function that throws at first, and is written again with a jump. -/
def rewritten : List Action :=
  [.declare "main", .define 0 0 0 [.throwText "not yet"],
    .define 0 0 0 [.label, .pushText "done", .jump .ifTrue 0, .bind 0, .emit (.simple .retVoid)],
    .entry 0]

theorem rewritten_judged : (∀ a ∈ rewritten, a.ByText) ∧ (∀ a ∈ earlier rewritten, ¬ a.Dangling) ∧
    ∃ b b', ({ name := "m" } : ModuleBuilder).actAll rewritten = some b ∧
      ({ name := "m" } : ModuleBuilder).actAll (latest rewritten) = some b' ∧
      ((∃ f, b.build = .error (.unboundLabel f)) ↔ ∃ a ∈ rewritten, a.Dangling) ∧
      ((∃ f, b.build = .error (.unboundLabel f)) ↔ ∃ a ∈ latest rewritten, a.Dangling) ∧
      Checks.Both (SameBut (earlier rewritten)) b.build b'.build ∧
      b.build.toOption.map (·.strings) = some ["not yet", "done"] ∧
      b'.build.toOption.map (·.strings) = some ["done"] := by
  have htext : ∀ a ∈ rewritten, a.ByText := by decide
  have hearlier : ∀ a ∈ earlier rewritten, ¬ a.Dangling := by decide
  have hbuilt : (({ name := "m" } : ModuleBuilder).actAll rewritten).map
      (·.build.toOption.map (·.strings)) = some (some ["not yet", "done"]) := by decide +kernel
  have hbuilt' : (({ name := "m" } : ModuleBuilder).actAll (latest rewritten)).map
      (·.build.toOption.map (·.strings)) = some (some ["done"]) := by decide +kernel
  obtain ⟨b, hrun, hbuild⟩ := Option.map_eq_some_iff.mp hbuilt
  obtain ⟨b₁, hrun₁, hbuild₁⟩ := Option.map_eq_some_iff.mp hbuilt'
  obtain ⟨hfails, b', hrun', hlatest⟩ := build_judges_latest "m" rewritten b htext hrun
  obtain rfl : b₁ = b' := Option.some.inj (hrun₁.symm.trans hrun')
  exact ⟨htext, hearlier, b, b₁, hrun, hrun', hfails, (hlatest hearlier).1, (hlatest hearlier).2,
    hbuild, hbuild₁⟩

/-- A function whose first body jumps to a label without a place, and whose second does not. -/
def mended : List Action :=
  [.declare "main", .define 0 0 0 [.label, .jump .always 0],
    .define 0 0 0 [.emit (.simple .retVoid)], .entry 0]

/-- **A function stays refused when its body is mended**: no body that is left has a label without a
    place, and without the first definition the module is built. -/
theorem mended_function_refused : ∃ b b' m,
    ({ name := "m" } : ModuleBuilder).actAll mended = some b ∧
      b.build = .error (.unboundLabel "main") ∧ (∀ a ∈ latest mended, ¬ a.Dangling) ∧
      ({ name := "m" } : ModuleBuilder).actAll (latest mended) = some b' ∧ b'.build = .ok m :=
  ⟨_, _, _, rfl, rfl, by decide, rfl, rfl⟩

end ModuleBuilder

end EmbeddedVm
