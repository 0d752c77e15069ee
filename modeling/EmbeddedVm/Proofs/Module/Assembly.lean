import EmbeddedVm.Proofs.Module.Drafts
import EmbeddedVm.Proofs.Module.Pools
import EmbeddedVm.Proofs.Module.WellFormed
import Std.Data.String.ToNat

/-!
# Numbers that a builder hands out

A builder hands out numbers while the tables they point into are still growing, and writes such
numbers into code at once. They stay right for one reason: a table is only ever extended behind its
end (`Grows`), so what stands at a place stands there in the finished module too. A number is kept in
16 or 32 bits, so this holds of modules whose tables have no more entries than there are numbers
(`TablesFit`); of a table that is longer, a late entry gets the number of an early one.
-/

namespace EmbeddedVm

/-! ## 1. Numbers in code -/

/-- No table of a module has more entries than there are numbers for them. -/
structure Module.TablesFit (m : Module) : Prop where
  strings : m.strings.length ≤ 2 ^ 32
  natives : m.natives.length ≤ 2 ^ 16
  functions : m.functions.length ≤ 2 ^ 32
  classes : m.classes.length ≤ 2 ^ 32

/-- What an action says about an instruction it emits: a string and an import are named, not
    numbered. -/
inductive Mention where
  | plain (i : Instruction)
  | jump (kind : Jump)
  | string (text : String)
  | native (name : String) (argc : UInt8)

/-- **An instruction is what is said about it**, by the tables of strings and of imports. -/
def Mention.Denotes (strings natives : List String) : Mention → Instruction → Prop
  | plain i, j => j = i
  | jump kind, j => ∃ rel, j = .jump kind rel
  | string text, j => ∃ k, j = .pushString k ∧ strings[k.toNat]? = some text
  | native name argc, j => ∃ k, j = .callNative k argc ∧ natives[k.toNat]? = some name

namespace BodyOp

/-- What an action in the body of a function of some name says about what it emits. -/
def mentions (name : String) : BodyOp → List Mention
  | label | bind _ => []
  | jump kind _ => [.jump kind]
  | emit i => [.plain i]
  | raw (.simple op) => [.plain (.simple op)]
  | raw _ => []
  | pushText text => [.string text]
  | pushName => [.string name]
  | throwText text => [.string text, .plain (.simple .throw)]
  | callNative native argc => [.native native argc]

variable {name : String} {q : Pools} {labels : List (Option Nat)}

/-- An action only adds to the pools. -/
theorem extends_emits (p : Pools) (op : BodyOp) : p.Extends (op.emits name p).1 := by
  cases op with
  | label | bind l | jump kind l | emit i => exact .refl p
  | raw op => cases op <;> exact .refl p
  | pushText text | throwText text => exact p.extends_string text
  | pushName => exact p.extends_string name
  | callNative native argc => exact p.extends_native native

theorem extends_poolsAfter (p : Pools) (body : List BodyOp) :
    p.Extends (poolsAfter name p body) := by
  induction body generalizing p with
  | nil => exact .refl p
  | cons op rest ih => exact (op.extends_emits p).trans (ih _)

/-- **What an action emits is what it says**, in all pools to come that have numbers enough. -/
theorem denotes_emits {p : Pools} {op : BodyOp} (h : (op.emits name p).1.Extends q)
    (hstrings : q.strings.texts.length ≤ 2 ^ 32) (hnatives : q.natives.texts.length ≤ 2 ^ 16)
    (offset : Nat) :
    List.Forall₂ (Mention.Denotes q.strings.texts q.natives.texts) (op.mentions name)
      (Emission.fill labels offset (op.emits name p).2) := by
  cases op with
  | label | bind l => exact .nil
  | jump kind l => exact .cons ⟨_, rfl⟩ .nil
  | emit i => exact .cons rfl .nil
  | raw op =>
      cases op with
      | simple op => exact .cons rfl .nil
      | _ => exact .nil
  | pushText text => exact .cons ⟨_, rfl, Pools.string_number h hstrings⟩ .nil
  | pushName => exact .cons ⟨_, rfl, Pools.string_number h hstrings⟩ .nil
  | throwText text => exact .cons ⟨_, rfl, Pools.string_number h hstrings⟩ (.cons rfl .nil)
  | callNative native argc => exact .cons ⟨_, rfl, Pools.native_number h hnatives⟩ .nil

theorem denotes_emitted {p : Pools} {body : List BodyOp} (h : (poolsAfter name p body).Extends q)
    (hstrings : q.strings.texts.length ≤ 2 ^ 32) (hnatives : q.natives.texts.length ≤ 2 ^ 16)
    (offset : Nat) :
    List.Forall₂ (Mention.Denotes q.strings.texts q.natives.texts) (body.flatMap (mentions name))
      (Emission.fill labels offset (emitted name p body)) := by
  induction body generalizing p offset with
  | nil => exact .nil
  | cons op rest ih =>
      have hop : (op.emits name p).1.Extends q := (extends_poolsAfter _ rest).trans h
      rw [List.flatMap_cons, emitted, Emission.fill_append]
      exact List.rel_append (denotes_emits hop hstrings hnatives offset) (ih h _)

end BodyOp

namespace ModuleBuilder

/-! ## 2. What a builder is asked for -/

/-- One action on a builder. -/
inductive Action where
  | declare (name : String)
  | define (index : UInt32) (params locals : UInt16) (body : List BodyOp)
  | cls (name : String) (members : List Member)
  | string (text : String)
  | native (name : String)
  | entry (index : UInt32)
  | flags (word : UInt32)

/-- Carries out an action; the second part is the number that is handed out. -/
def act (b : ModuleBuilder) : Action → Option (ModuleBuilder × Option Nat)
  | .declare name => some ((b.declare name).1, some (b.declare name).2.toNat)
  | .define index params locals body => (b.define index params locals body).map (·, none)
  | .cls name members => some ((b.cls name members).1, some (b.cls name members).2.toNat)
  | .string text => some ((b.string text).1, some (b.string text).2.toNat)
  | .native name => some ((b.native name).1, some (b.native name).2.toNat)
  | .entry index => some ({ b with entry := index }, none)
  | .flags word => some ({ b with flags := word }, none)

/-- Carries out actions one after the other. -/
def actAll (b : ModuleBuilder) : List Action → Option ModuleBuilder
  | [] => some b
  | a :: rest => do
    let (b, _) ← b.act a
    b.actAll rest

theorem actAll_append (b : ModuleBuilder) (actions actions' : List Action) :
    b.actAll (actions ++ actions') = (b.actAll actions).bind (·.actAll actions') := by
  induction actions generalizing b with
  | nil => rfl
  | cons a rest ih =>
      rw [List.cons_append, actAll, actAll]
      cases b.act a with
      | none => rfl
      | some r => exact ih r.1

/-- A builder that has gone on: its tables have grown. -/
structure Grows (b b' : ModuleBuilder) : Prop where
  pools : b.pools.Extends b'.pools
  functions : b.functions.map (·.1) <+: b'.functions.map (·.1)
  classes : b.classes.map (·.name) <+: b'.classes.map (·.name)

theorem Grows.refl (b : ModuleBuilder) : b.Grows b := ⟨.refl _, List.prefix_rfl, List.prefix_rfl⟩

theorem Grows.trans {b b' b'' : ModuleBuilder} (h : b.Grows b') (h' : b'.Grows b'') :
    b.Grows b'' :=
  ⟨h.pools.trans h'.pools, h.functions.trans h'.functions, h.classes.trans h'.classes⟩

/-- A function is defined under the name under which it is declared. -/
def NamesKept (b : ModuleBuilder) : Prop :=
  ∀ name f, (name, some f) ∈ b.functions → f.name = name

/-! ## 3. One action -/

/-- The definition of a function, taken apart. -/
theorem define_eq_some {b b' : ModuleBuilder} {index : UInt32} {params locals : UInt16}
    {body : List BodyOp} (h : b.define index params locals body = some b') :
    ∃ name slot d f, b.functions[index.toNat]? = some (name, slot) ∧
      Draft.applyAll name b.pools {} body = some (b'.pools, d) ∧
      f.name = name ∧ f.code = d.finish.1 ∧
      b'.functions = b.functions.set index.toNat (name, some f) ∧ b'.classes = b.classes := by
  obtain ⟨⟨name, slot⟩, hdeclared, h⟩ := Option.bind_eq_some_iff.mp h
  obtain ⟨⟨pools, d⟩, hd, h⟩ := Option.bind_eq_some_iff.mp h
  cases h
  exact ⟨name, slot, d, _, hdeclared, hd, rfl, rfl, rfl, rfl⟩

theorem grows_declare (b : ModuleBuilder) (name : String) : b.Grows (b.declare name).1 := by
  unfold declare
  split
  · exact .refl b
  · refine ⟨.refl _, ?_, List.prefix_rfl⟩
    rw [List.map_append]
    exact List.prefix_append _ _

theorem name_foldl_addMember (c : Class) (members : List Member) :
    (members.foldl addMember c).name = c.name := by
  induction members generalizing c with
  | nil => rfl
  | cons member rest ih =>
      rw [List.foldl_cons, ih]
      cases member <;> rfl

theorem grows_cls (b : ModuleBuilder) (name : String) (members : List Member) :
    b.Grows (b.cls name members).1 := by
  unfold cls
  split
  · exact ⟨.refl _, List.prefix_rfl,
      isPrefix_of_eq (map_modify_of_key (fun c => name_foldl_addMember c members) _ _).symm⟩
  · refine ⟨.refl _, List.prefix_rfl, ?_⟩
    rw [List.map_append]
    exact List.prefix_append _ _

theorem grows_define {b b' : ModuleBuilder} {index : UInt32} {params locals : UInt16}
    {body : List BodyOp} (h : b.define index params locals body = some b') : b.Grows b' := by
  obtain ⟨name, slot, d, f, hdeclared, hd, -, -, hfunctions, hclasses⟩ := define_eq_some h
  obtain ⟨hpools, -⟩ := Draft.written_of_applyAll hd
  refine ⟨?_, ?_, ?_⟩
  · rw [hpools]
    exact BodyOp.extends_poolsAfter _ body
  · have hnames : (b.functions.set index.toNat (name, some f)).map (·.1) = b.functions.map (·.1) :=
      map_set_of_key hdeclared rfl
    exact isPrefix_of_eq (by rw [hfunctions, hnames])
  · exact isPrefix_of_eq (by rw [hclasses])

/-- **An action makes no table shorter and moves nothing in it.** -/
theorem grows_act {b b' : ModuleBuilder} {a : Action} {number : Option Nat}
    (h : b.act a = some (b', number)) : b.Grows b' := by
  cases a with
  | declare name => cases h; exact grows_declare b name
  | define index params locals body =>
      obtain ⟨b₁, hb₁, heq⟩ := Option.map_eq_some_iff.mp h
      cases heq
      exact grows_define hb₁
  | cls name members => cases h; exact grows_cls b name members
  | string text => cases h; exact ⟨b.pools.extends_string text, List.prefix_rfl, List.prefix_rfl⟩
  | native name => cases h; exact ⟨b.pools.extends_native name, List.prefix_rfl, List.prefix_rfl⟩
  | entry index | flags word => cases h; exact ⟨.refl _, List.prefix_rfl, List.prefix_rfl⟩

/-- An action defines a function under its name or leaves the definitions alone. -/
theorem namesKept_act {b b' : ModuleBuilder} {a : Action} {number : Option Nat}
    (h : b.act a = some (b', number)) (hb : b.NamesKept) : b'.NamesKept := by
  cases a with
  | declare name =>
      cases h
      unfold declare
      split
      · exact hb
      · intro other f hmem
        rcases List.mem_append.mp hmem with hmem | hlast
        · exact hb other f hmem
        · cases List.mem_singleton.mp hlast
  | define index params locals body =>
      obtain ⟨b₁, hb₁, heq⟩ := Option.map_eq_some_iff.mp h
      cases heq
      obtain ⟨name, slot, d, f, -, -, hname, -, hfunctions, -⟩ := define_eq_some hb₁
      intro other g hmem
      rw [hfunctions] at hmem
      rcases List.mem_or_eq_of_mem_set hmem with hmem | heq
      · exact hb other g hmem
      · cases heq
        exact hname
  | cls name members =>
      cases h
      unfold cls
      split <;> exact hb
  | string text | native name | entry index | flags word => cases h; exact hb

/-! ## 4. All actions -/

theorem grows_actAll {b b' : ModuleBuilder} {actions : List Action}
    (h : b.actAll actions = some b') : b.Grows b' := by
  induction actions generalizing b with
  | nil => cases h; exact .refl _
  | cons a rest ih =>
      obtain ⟨⟨b₁, number⟩, hb₁, hrest⟩ := Option.bind_eq_some_iff.mp h
      exact (grows_act hb₁).trans (ih hrest)

theorem namesKept_actAll {b b' : ModuleBuilder} {actions : List Action}
    (h : b.actAll actions = some b') (hb : b.NamesKept) : b'.NamesKept := by
  induction actions generalizing b with
  | nil => cases h; exact hb
  | cons a rest ih =>
      obtain ⟨⟨b₁, number⟩, hb₁, hrest⟩ := Option.bind_eq_some_iff.mp h
      exact ih hrest (namesKept_act hb₁ hb)

/-! ## 5. The module that is built -/

/-- Functions keep the names under which they were declared. -/
theorem map_name_definitions {l : List (String × Option Function)} {fs : List Function}
    (h : definitions l = .ok fs) (hl : ∀ name f, (name, some f) ∈ l → f.name = name) :
    fs.map (·.name) = l.map (·.1) := by
  induction l generalizing fs with
  | nil => cases h; rfl
  | cons entry rest ih =>
      obtain ⟨name, slot⟩ := entry
      cases slot with
      | none => cases h
      | some f =>
          obtain ⟨fs', hfs', heq⟩ := Checks.bind_eq_ok.mp h
          cases heq
          rw [List.map_cons, List.map_cons, hl name f List.mem_cons_self,
            ih hfs' fun name f hf => hl name f (List.mem_cons_of_mem _ hf)]

/-- A module that is built: its tables are those of the builder, and it is verified. -/
theorem build_eq_ok {b : ModuleBuilder} {m : Module} (h : b.build = .ok m) :
    m.strings = b.pools.strings.texts ∧ m.natives = b.pools.natives.texts ∧
      m.classes = b.classes ∧ definitions b.functions = .ok m.functions ∧ m.verify = .ok () := by
  unfold build at h
  split at h
  · cases h
  · obtain ⟨fs, hfs, h⟩ := Checks.bind_eq_ok.mp h
    obtain ⟨hverify, hm⟩ := Checks.andThen_eq_ok.mp h
    cases hm
    exact ⟨rfl, rfl, rfl, hfs, Checks.mapError_eq_ok.mp hverify⟩

/-- **What an action on a builder says about a module**: the number that is handed out is the place
    of what was asked for, and the code that is written says what its body says. -/
def Action.Denotes (m : Module) (b : ModuleBuilder) : Action → Option Nat → Prop
  | .declare name, number => ∃ i f, number = some i ∧ m.functions[i]? = some f ∧ f.name = name
  | .cls name _, number => ∃ i c, number = some i ∧ m.classes[i]? = some c ∧ c.name = name
  | .string text, number => ∃ i, number = some i ∧ m.strings[i]? = some text
  | .native name, number => ∃ i, number = some i ∧ m.natives[i]? = some name
  | .define index _ _ body, _ => ∃ name f listed, b.functions[index.toNat]? = some (name, some f) ∧
      Instruction.decodeBody f.code = .ok listed ∧
      List.Forall₂ (Mention.Denotes m.strings m.natives) (body.flatMap (BodyOp.mentions name))
        (listed.map (·.2))
  | .entry _, _ | .flags _, _ => True

/-- A declared function stands at its number. -/
theorem declare_number (b : ModuleBuilder) (name : String) :
    ∃ i, (b.declare name).2 = .ofNat i ∧
      ((b.declare name).1.functions.map (·.1))[i]? = some name := by
  unfold declare
  split
  · rename_i i hi
    obtain ⟨hlt, hname, -⟩ := List.findIdx?_eq_some_iff_getElem.mp hi
    refine ⟨i, rfl, ?_⟩
    rw [List.getElem?_map, List.getElem?_eq_getElem hlt]
    exact congrArg some (beq_iff_eq.mp hname)
  · refine ⟨b.functions.length, rfl, ?_⟩
    rw [List.getElem?_map, List.getElem?_concat_length]
    rfl

/-- A class stands at its number. -/
theorem cls_number (b : ModuleBuilder) (name : String) (members : List Member) :
    ∃ i, (b.cls name members).2 = .ofNat i ∧
      ((b.cls name members).1.classes.map (·.name))[i]? = some name := by
  unfold cls
  split
  · rename_i i hi
    obtain ⟨hlt, hname, -⟩ := List.findIdx?_eq_some_iff_getElem.mp hi
    refine ⟨i, rfl, ?_⟩
    rw [map_modify_of_key (fun c => name_foldl_addMember c members), List.getElem?_map,
      List.getElem?_eq_getElem hlt]
    exact congrArg some (beq_iff_eq.mp hname)
  · refine ⟨b.classes.length, rfl, ?_⟩
    rw [List.getElem?_map, List.getElem?_concat_length]
    exact congrArg some (name_foldl_addMember _ members)

section Build

variable {b b' c : ModuleBuilder} {m : Module}

/-- The code that is written says in the finished module what its body says. -/
theorem denotes_define {index : UInt32} {params locals : UInt16} {body : List BodyOp}
    (hc : c.build = .ok m) (hfit : m.TablesFit) (hb : b.define index params locals body = some b')
    (hgrows : b'.Grows c) (number : Option Nat) :
    (Action.define index params locals body).Denotes m b' number := by
  obtain ⟨hstrings, hnatives, -⟩ := build_eq_ok hc
  obtain ⟨name, slot, d, f, hdeclared, hd, -, hcode, hfunctions, -⟩ := define_eq_some hb
  obtain ⟨hpools, hwritten⟩ := Draft.written_of_applyAll hd
  have hplace : b'.functions[index.toNat]? = some (name, some f) := by
    rw [hfunctions, List.getElem?_set_self (List.getElem?_eq_some_iff.mp hdeclared).1]
  have hextends : (BodyOp.poolsAfter name b.pools body).Extends c.pools := hpools ▸ hgrows.pools
  refine ⟨name, f, _, hplace, hcode ▸ hwritten.decode, ?_⟩
  · rw [Instruction.map_snd_listing, hstrings, hnatives]
    exact BodyOp.denotes_emitted hextends (hstrings ▸ hfit.strings) (hnatives ▸ hfit.natives) 0

/-- **A number is right** in a module that is built later and whose tables fit. -/
theorem denotes_act {a : Action} {number : Option Nat} (hc : c.build = .ok m)
    (hnames : c.NamesKept) (hfit : m.TablesFit) (h : b.act a = some (b', number))
    (hgrows : b'.Grows c) : a.Denotes m b' number := by
  obtain ⟨hstrings, hnatives, hclasses, hdefined, -⟩ := build_eq_ok hc
  cases a with
  | declare name =>
      cases h
      obtain ⟨i, hi, hplace⟩ := b.declare_number name
      have hplace' := getElem?_of_isPrefix hgrows.functions hplace
      rw [← map_name_definitions hdefined hnames] at hplace'
      obtain ⟨f, hf, hname⟩ := exists_of_name hplace' hfit.functions
      exact ⟨_, f, by rw [hi], hf, hname⟩
  | define index params locals body =>
      obtain ⟨b₁, hb₁, heq⟩ := Option.map_eq_some_iff.mp h
      cases heq
      exact denotes_define hc hfit hb₁ hgrows none
  | cls name members =>
      cases h
      obtain ⟨i, hi, hplace⟩ := b.cls_number name members
      have hplace' := getElem?_of_isPrefix hgrows.classes hplace
      rw [← hclasses] at hplace'
      obtain ⟨c, hclass, hname⟩ := exists_of_name hplace' hfit.classes
      exact ⟨_, c, by rw [hi], hclass, hname⟩
  | string text =>
      cases h
      exact ⟨_, rfl, hstrings ▸ Pools.string_number hgrows.pools (hstrings ▸ hfit.strings)⟩
  | native name =>
      cases h
      exact ⟨_, rfl, hnatives ▸ Pools.native_number hgrows.pools (hnatives ▸ hfit.natives)⟩
  | entry index | flags word => trivial

end Build

/-- **Numbers keep their meaning.** Whenever actions on a new builder lead to a module, no name and
    no string occurs twice in its table. If the tables of the module have no more entries than there
    are numbers for them, then the number that any of the actions handed out is the place of what it
    asked for, and the code that it wrote pushes, throws and calls what its body says. -/
theorem numbers_keep_meaning (name : String) (actions : List Action) (b : ModuleBuilder)
    (m : Module) (hrun : ({ name } : ModuleBuilder).actAll actions = some b)
    (hbuild : b.build = .ok m) :
    ((m.functions.map (·.name)).Nodup ∧ (m.classes.map (·.name)).Nodup ∧ m.strings.Nodup ∧
        m.natives.Nodup) ∧
      (m.TablesFit → ∀ before a after, actions = before ++ a :: after →
        ∃ b₀ b₁ number, ({ name } : ModuleBuilder).actAll before = some b₀ ∧
          b₀.act a = some (b₁, number) ∧ b₁.actAll after = some b ∧ a.Denotes m b₁ number) := by
  obtain ⟨hstrings, hnatives, -, -, hverify⟩ := build_eq_ok hbuild
  have hnamed := Module.wellNamed_of_verify hverify
  refine ⟨⟨hnamed.functions, hnamed.classes, ?_, ?_⟩, ?_⟩
  · rw [hstrings]
    exact b.pools.strings.nodup_texts
  · rw [hnatives]
    exact b.pools.natives.nodup_texts
  · rintro hfit before a after rfl
    have hnames := namesKept_actAll hrun fun _ _ hf => nomatch hf
    rw [actAll_append] at hrun
    obtain ⟨b₀, hb₀, hrun⟩ := Option.bind_eq_some_iff.mp hrun
    obtain ⟨⟨b₁, number⟩, hb₁, hafter⟩ := Option.bind_eq_some_iff.mp hrun
    exact ⟨b₀, b₁, number, hb₀, hb₁, hafter,
      denotes_act hbuild hnames hfit hb₁ (grows_actAll hafter)⟩

/-- A function that greets through the host, and a class. -/
def greeting : List Action :=
  [.declare "main", .cls "Game" [.static ⟨"score", .int 0⟩], .native "host.print",
    .define 0 0 0 [.pushText "hi", .callNative "host.print" 1, .emit (.simple .pop), .throwText "hi"],
    .string "hi", .entry 0]

/-- The module of it. -/
def greetingModule : Module where
  flags := 0
  name := "m"
  strings := ["hi"]
  functions := [⟨"main", 0, 0, Instruction.encodeBody [.pushString 0, .callNative 0 1, .simple .pop,
    .pushString 0, .simple .throw]⟩]
  classes := [⟨"Game", [⟨"score", .int 0⟩], []⟩]
  natives := ["host.print"]
  entry := 0

theorem greeting_numbers : ∃ b, ({ name := "m" } : ModuleBuilder).actAll greeting = some b ∧
    b.build = .ok greetingModule ∧ greetingModule.TablesFit ∧
    ((greetingModule.functions.map (·.name)).Nodup ∧ (greetingModule.classes.map (·.name)).Nodup ∧
      greetingModule.strings.Nodup ∧ greetingModule.natives.Nodup) ∧
    ∀ before a after, greeting = before ++ a :: after →
      ∃ b₀ b₁ number, ({ name := "m" } : ModuleBuilder).actAll before = some b₀ ∧
        b₀.act a = some (b₁, number) ∧ b₁.actAll after = some b ∧
        a.Denotes greetingModule b₁ number := by
  have hbuilt : (({ name := "m" } : ModuleBuilder).actAll greeting).map build =
      some (.ok greetingModule) := by decide +kernel
  obtain ⟨b, hrun, hbuild⟩ := Option.map_eq_some_iff.mp hbuilt
  have hfit : greetingModule.TablesFit := ⟨by decide, by decide, by decide, by decide⟩
  obtain ⟨hnodup, hnumbers⟩ := numbers_keep_meaning "m" greeting b greetingModule hrun hbuild
  exact ⟨b, hrun, hbuild, hfit, hnodup, hnumbers hfit⟩

/-! ## 6. A table that is too long -/

/-- **Imports that are new** come one behind the other. -/
theorem actAll_natives (b : ModuleBuilder) (names : List String)
    (h : (b.pools.natives.texts ++ names).Nodup) :
    ∃ natives : Pool, b.actAll (names.map .native) =
        some { b with pools := { b.pools with natives } } ∧
      natives.texts = b.pools.natives.texts ++ names := by
  induction names generalizing b with
  | nil => exact ⟨b.pools.natives, rfl, (List.append_nil _).symm⟩
  | cons name rest ih =>
      have hnew : name ∉ b.pools.natives.texts := fun hmem =>
        (List.nodup_append.mp h).2.2 name hmem name List.mem_cons_self rfl
      obtain ⟨htexts, -⟩ := Pool.intern_new hnew
      obtain ⟨natives, hrun, hnatives⟩ := ih (b.native name).1 (by
        rw [show (b.native name).1.pools.natives.texts = _ from htexts, List.append_assoc]
        exact h)
      refine ⟨natives, hrun, ?_⟩
      rw [hnatives, show (b.native name).1.pools.natives.texts = _ from htexts, List.append_assoc]
      rfl

/-- The name of an import: a number behind at most three signs, so that names have many lengths. -/
def importName (k : Nat) : String :=
  String.ofList (List.replicate (k % 4) '+' ++ Nat.toDigits 10 (k / 4))

theorem importName_injective : Function.Injective importName := by
  intro j k h
  have hchars : List.replicate (j % 4) '+' ++ Nat.toDigits 10 (j / 4) =
      List.replicate (k % 4) '+' ++ Nat.toDigits 10 (k / 4) := String.ofList_injective h
  -- the digits are what is left without the signs
  have hdigits : ∀ n d, (List.replicate n '+' ++ Nat.toDigits 10 d).filter (·.isDigit) =
      Nat.toDigits 10 d := fun n d => by
    rw [List.filter_append, List.filter_replicate_of_neg (by decide), List.nil_append]
    exact List.filter_eq_self.mpr fun c hc =>
      Nat.isDigit_of_mem_toDigits (by decide) (Nat.le_refl 10) hc
  have hsame := congrArg (List.filter (·.isDigit)) hchars
  rw [hdigits, hdigits] at hsame
  have hquotient : j / 4 = k / 4 := Nat.repr_inj.mp (congrArg String.ofList hsame)
  have hlength := congrArg List.length hchars
  rw [List.length_append, List.length_append, List.length_replicate, List.length_replicate,
    hsame] at hlength
  omega

/-- **The import behind 65536 others is handed the number of the first one**, and a module with all
    of them is built. -/
theorem late_import_wraps {names : List String} {last : String} (hnodup : (names ++ [last]).Nodup)
    (hlength : names.length = 2 ^ 16) :
    ∃ b₀ b₁ b m, ({ name := "m" } : ModuleBuilder).actAll (names.map .native) = some b₀ ∧
      b₀.act (.native last) = some (b₁, some 0) ∧
      b₁.actAll [.declare "main", .define 0 0 0 [.emit (.simple .retVoid)], .entry 0] = some b ∧
      b.build = .ok m ∧ m.natives = names ++ [last] := by
  obtain ⟨hnames, -, hlast⟩ := List.nodup_append.mp hnodup
  obtain ⟨natives, hrun, htexts⟩ := actAll_natives { name := "m" } names hnames
  replace htexts : natives.texts = names := htexts
  have hnew : last ∉ natives.texts := fun hmem =>
    hlast last (htexts ▸ hmem) last List.mem_cons_self rfl
  obtain ⟨hadded, hnumber⟩ := Pool.intern_new hnew
  have hbuild : ∀ p : Pool, ∃ b m, ({ name := "m", pools := { natives := p } } : ModuleBuilder).actAll
      [.declare "main", .define 0 0 0 [.emit (.simple .retVoid)], .entry 0] = some b ∧
      b.build = .ok m ∧ m.natives = p.texts := fun p => ⟨_, _, rfl, rfl, rfl⟩
  obtain ⟨b, m, hb, hm, hnatives⟩ := hbuild (natives.intern last).1
  refine ⟨_, _, b, m, hrun, ?_, hb, hm, by rw [hnatives, hadded, htexts]⟩
  have hzero : (UInt16.ofNat (natives.intern last).2).toNat = 0 := by
    rw [hnumber, htexts, hlength]
    rfl
  exact congrArg (fun number => some (_, some number)) hzero

/-- **With 65537 imports a number does not denote what it was handed out for.** -/
theorem last_import_wraps :
    ∃ b₀ b₁ b m, ({ name := "m" } : ModuleBuilder).actAll
        (((List.range (2 ^ 16)).map importName).map .native) = some b₀ ∧
      b₀.act (.native (importName (2 ^ 16))) = some (b₁, some 0) ∧
      b₁.actAll [.declare "main", .define 0 0 0 [.emit (.simple .retVoid)], .entry 0] = some b ∧
      b.build = .ok m ∧ m.natives[0]? = some (importName 0) ∧
      ¬ (Action.native (importName (2 ^ 16))).Denotes m b₁ (some 0) := by
  have hnodup : ((List.range (2 ^ 16 + 1)).map importName).Nodup :=
    List.nodup_range.map importName_injective
  rw [List.range_succ, List.map_append] at hnodup
  obtain ⟨b₀, b₁, b, m, hrun, hlast, hrest, hbuild, hnatives⟩ :=
    late_import_wraps hnodup (by rw [List.length_map, List.length_range])
  have hfirst : m.natives[0]? = some (importName 0) := by
    rw [hnatives, List.getElem?_append_left (by rw [List.length_map, List.length_range]; decide),
      List.getElem?_map, List.getElem?_range (by decide)]
    rfl
  refine ⟨b₀, b₁, b, m, hrun, hlast, hrest, hbuild, hfirst, ?_⟩
  rintro ⟨i, hi, hplace⟩
  cases hi
  rw [hfirst] at hplace
  exact absurd (importName_injective (Option.some.inj hplace)) (by decide)

end ModuleBuilder

end EmbeddedVm
