import EmbeddedVm.Proofs.Bytes.Consuming
import EmbeddedVm.Proofs.Module.RoundTrip

/-!
# How a module can be spelled

One part of the format after the other is asked in how many ways it is read. Words, texts, functions
and methods have one spelling each. A boolean has many, since every byte but zero is a true one:
`storedBooleans` reads these bytes out of a file, and the rest of the file is spelled as it is written
(`SpelledBy`). What stands behind the sections is the table of imports where the flags say so, and
the entry index.
-/

namespace EmbeddedVm

open Decoder

/-! ## 1. The bytes of the booleans -/

/-- The boolean in an initial value, if there is one. -/
def Scalar.booleans : Scalar → List Bool
  | bool b => [b]
  | _ => []

/-- The booleans among the initial values of a class, in order. -/
def Class.booleans (c : Class) : List Bool := c.statics.flatMap fun f => f.initial.booleans

/-- The booleans among the initial values of a module, in order. -/
def Module.booleans (m : Module) : List Bool := m.classes.flatMap Class.booleans

/-- Reads past an initial value, and says which byte stands for its boolean, if it is one: the byte
    behind the tag. -/
def Scalar.storedBooleans : Decoder (List UInt8) := do
  let start ← get
  match ← Scalar.decode with
  | bool _ => return (start.rest.drop 1).take 1
  | _ => return []

/-- Reads past a static field, and says which byte stands for its boolean, if it has one. -/
def StaticField.storedBooleans : Decoder (List UInt8) := do
  let _ ← Decoder.text
  Scalar.storedBooleans

/-- Reads past a class, and says which bytes stand for its booleans. -/
def Class.storedBooleans : Decoder (List UInt8) := do
  let _ ← Decoder.text
  let staticCount ← Decoder.u16
  let stored ← Decoder.times StaticField.storedBooleans staticCount.toNat
  let methodCount ← Decoder.u16
  let _ ← Decoder.times Method.decode methodCount.toNat
  return stored.flatten

namespace Module

/-- Reads past the sections of a payload, and says which bytes stand for booleans. -/
def sectionBooleans : Decoder (List UInt8) := do
  let _ ← Decoder.text
  let _ ← decodeTable Decoder.text
  let _ ← decodeTable Function.decode
  let stored ← decodeTable Class.storedBooleans
  return stored.flatten

/-- How many bytes the header takes. -/
def headerSize : Nat := 16

/-- **The bytes by which a file stores its booleans**, in order. -/
def storedBooleans (data : Bytes) : List UInt8 :=
  match sectionBooleans.run ⟨headerSize, data.drop headerSize⟩ with
  | .ok stored _ => stored
  | .error _ _ => []

end Module

/-! ## 2. One spelling but for the booleans -/

/-- **Bytes that are a spelling of what is written**: a decoder finds bytes for booleans in them,
    these stand for the values, and but for them there is no difference. -/
def SpelledBy (stored : Decoder (List UInt8)) (written : Bytes) (values : List Bool) (bs : Bytes) :
    Prop :=
  ∃ listed, Reads stored bs listed ∧ Canonical bs written listed ∧ listed.map (· != 0) = values

theorem Function.takes : TakesWritten Function.decode Function.encode := by
  unfold Function.decode
  refine takes_text.bind fun name named hname => takes_u16.bind fun paramCount params hparams =>
    takes_u16.bind fun localCount locals hlocals => takes_u32.bind fun length counted hcounted =>
      (takes_take length.toNat).map _ fun code taken hcode => ?_
  obtain ⟨rfl, hlength⟩ := hcode
  unfold Function.encode
  rw [hname, hparams, hlocals, hcounted, hlength, UInt32.ofNat_toNat]
  simp only [List.append_assoc]

theorem Method.takes : TakesWritten Method.decode Method.encode := by
  unfold Method.decode
  refine takes_text.bind fun name named hname => takes_u32.map _ fun function indexed hindexed => ?_
  unfold Method.encode
  rw [hname, hindexed]

/-- An initial value is written as it is spelled, unless it is a boolean. -/
theorem Scalar.takes_encode : Takes Scalar.decode fun v bs =>
    (∃ b : UInt8, v = bool (b != 0) ∧ bs = [1, b]) ∨ (∀ b, v ≠ bool b) ∧ bs = v.encode := by
  unfold Scalar.decode
  refine takes_position.bind fun offset none hnone => takes_u8.bind fun tag tagged htag => ?_
  rw [hnone, htag]
  split
  · rename_i hzero
    obtain rfl : tag = 0 := UInt8.toNat_inj.mp hzero
    exact takes_pure (.inr ⟨fun b => Scalar.noConfusion, rfl⟩)
  · rename_i hone
    obtain rfl : tag = 1 := UInt8.toNat_inj.mp hone
    refine takes_u8.map _ fun b stored hstored => .inl ⟨b, rfl, ?_⟩
    rw [hstored]
    rfl
  · rename_i htwo
    obtain rfl : tag = 2 := UInt8.toNat_inj.mp htwo
    refine takes_i32.map _ fun n stored hstored => .inr ⟨fun b => Scalar.noConfusion, ?_⟩
    rw [hstored]
    rfl
  · rename_i hthree
    obtain rfl : tag = 3 := UInt8.toNat_inj.mp hthree
    refine takes_f64.map _ fun x stored hstored => .inr ⟨fun b => Scalar.noConfusion, ?_⟩
    rw [hstored]
    rfl
  · rename_i hfour
    obtain rfl : tag = 4 := UInt8.toNat_inj.mp hfour
    refine takes_text.map _ fun s stored hstored => .inr ⟨fun b => Scalar.noConfusion, ?_⟩
    rw [hstored]
    rfl
  · exact takes_throw _

/-- A boolean is stored by the byte behind its tag. -/
theorem Scalar.spelledBy_bool (b : UInt8) :
    SpelledBy Scalar.storedBooleans (bool (b != 0)).encode (bool (b != 0)).booleans [1, b] := by
  refine ⟨[b], fun position rest => rfl, ⟨rfl, ?_⟩, rfl⟩
  unfold Scalar.encode
  by_cases hb : b = 0
  · subst hb
    refine iff_of_true rfl fun x hx => ?_
    exact .inl (List.mem_singleton.mp hx)
  · have htrue : (b != 0) = true := bne_iff_ne.mpr hb
    rw [htrue]
    simp [hb]

/-- Any other value has no byte for a boolean. -/
theorem Scalar.spelledBy_encode {v : Scalar} (hfits : v.Fits) (hv : ∀ b, v ≠ bool b) :
    SpelledBy Scalar.storedBooleans v.encode v.booleans v.encode := by
  have hreads : Reads Scalar.storedBooleans v.encode [] := by
    intro position rest
    show (Scalar.decode >>= _).run ⟨position, v.encode ++ rest⟩ = _
    rw [EStateM.run_bind, Scalar.reads hfits]
    cases v with
    | bool b => exact absurd rfl (hv b)
    | null | int _ | float _ | string _ => rfl
  refine ⟨[], hreads, canonical_written _, ?_⟩
  cases v with
  | bool b => exact absurd rfl (hv b)
  | null | int _ | float _ | string _ => rfl

theorem Scalar.takes : Takes Scalar.decode fun v bs =>
    SpelledBy Scalar.storedBooleans v.encode v.booleans bs := by
  refine (Scalar.takes_encode.yields Scalar.yields).imp fun v bs h => ?_
  obtain ⟨⟨b, rfl, rfl⟩ | ⟨hv, rfl⟩, hfits⟩ := h
  · exact Scalar.spelledBy_bool b
  · exact Scalar.spelledBy_encode hfits hv

/-- What is written before it makes no difference to a spelling. -/
theorem SpelledBy.behind {α : Type} {d : Decoder α} {stored : Decoder (List UInt8)}
    {first written bs : Bytes} {values : List Bool} {a : α} (hfirst : Reads d first a)
    (h : SpelledBy stored written values bs) :
    SpelledBy (do let _ ← d; stored) (first ++ written) values (first ++ bs) := by
  obtain ⟨listed, hreads, hcanonical, hvalues⟩ := h
  exact ⟨listed, hfirst.bind hreads, (canonical_written first).append hcanonical, hvalues⟩

theorem StaticField.takes : Takes StaticField.decode fun f bs =>
    SpelledBy StaticField.storedBooleans f.encode f.initial.booleans bs := by
  unfold StaticField.decode
  refine (takes_text.yields yields_text).bind fun name named hname =>
    Scalar.takes.map _ fun initial bs hinitial => ?_
  obtain ⟨rfl, hfits⟩ := hname
  exact hinitial.behind (reads_text hfits)

/-- Spellings in a row are a spelling of the row. -/
theorem spelledBy_times {α : Type} {item : Decoder α} {stored : Decoder (List UInt8)}
    {encode : α → Bytes} {booleans : α → List Bool}
    (h : Takes item fun a bs => SpelledBy stored (encode a) (booleans a) bs) (n : Nat) :
    Takes (times item n) fun xs bs => xs.length = n ∧ ∃ lists, Reads (times stored n) bs lists ∧
      Canonical bs (xs.flatMap encode) lists.flatten ∧
      lists.flatten.map (· != 0) = xs.flatMap booleans := by
  induction n with
  | zero => exact takes_pure ⟨rfl, [], reads_pure [], canonical_written [], rfl⟩
  | succ n ih =>
      unfold Decoder.times
      refine h.bind fun x first hfirst => ih.map _ fun xs rest hrest => ?_
      obtain ⟨listed, hreads, hcanonical, hvalues⟩ := hfirst
      obtain ⟨rfl, lists, hreads', hcanonical', hvalues'⟩ := hrest
      refine ⟨rfl, listed :: lists, hreads.bind (hreads'.map _), ?_, ?_⟩
      · rw [List.flatMap_cons, List.flatten_cons]
        exact hcanonical.append hcanonical'
      · rw [List.flatMap_cons, List.flatten_cons, List.map_append, hvalues, hvalues']

theorem Class.takes : Takes Class.decode fun c bs =>
    SpelledBy Class.storedBooleans c.encode c.booleans bs := by
  unfold Class.decode
  refine (takes_text.yields yields_text).bind fun name named hname =>
    takes_u16.bind fun staticCount counted hcounted =>
      (spelledBy_times StaticField.takes staticCount.toNat).bind fun statics listed hstatics =>
        takes_u16.bind fun methodCount counted' hcounted' =>
          ((Takes.times Method.takes methodCount.toNat).yields (Method.yields.times _)).map _
            fun methods written hmethods => ?_
  obtain ⟨rfl, hfits⟩ := hname
  obtain ⟨hstaticCount, lists, hreads, hcanonical, hvalues⟩ := hstatics
  obtain ⟨⟨hmethodCount, rfl⟩, -, hmethodsFit⟩ := hmethods
  have hmethodsRead : Reads (times Method.decode methodCount.toNat)
      (methods.flatMap Method.encode) methods := by
    rw [← hmethodCount]
    exact Reads.times fun m hm => Method.reads (hmethodsFit m hm)
  refine ⟨lists.flatten, ?_, ?_, hvalues⟩
  · rw [hcounted, hcounted']
    exact (reads_text hfits).bind ((reads_u16 _).bind (hreads.bind ((reads_u16 _).bind
      (hmethodsRead.map _))))
  · unfold Class.encode
    rw [hstaticCount, hmethodCount, UInt16.ofNat_toNat, UInt16.ofNat_toNat, hcounted, hcounted']
    simp only [List.append_assoc]
    exact ((hcanonical.before _).behind _).behind _

/-! ## 3. Payloads -/

namespace Module

/-- A table has one spelling if its entries have. -/
theorem takes_table {α : Type} {item : Decoder α} {encode : α → Bytes}
    (h : TakesWritten item encode) : TakesWritten (decodeTable item) (encodeTable encode) := by
  unfold decodeTable
  refine takes_u32.bind fun count counted hcounted => (h.times count.toNat).imp fun xs bs hxs => ?_
  obtain ⟨hlength, rfl⟩ := hxs
  unfold encodeTable
  rw [hlength, UInt32.ofNat_toNat, hcounted]

/-- Spellings in a table are a spelling of the table. -/
theorem spelledBy_table {α : Type} {item : Decoder α} {stored : Decoder (List UInt8)}
    {encode : α → Bytes} {booleans : α → List Bool}
    (h : Takes item fun a bs => SpelledBy stored (encode a) (booleans a) bs) :
    Takes (decodeTable item) fun xs bs => ∃ lists, Reads (decodeTable stored) bs lists ∧
      Canonical bs (encodeTable encode xs) lists.flatten ∧
      lists.flatten.map (· != 0) = xs.flatMap booleans := by
  unfold decodeTable
  refine takes_u32.bind fun count counted hcounted =>
    (spelledBy_times h count.toNat).imp fun xs bs hxs => ?_
  obtain ⟨hlength, lists, hreads, hcanonical, hvalues⟩ := hxs
  refine ⟨lists, ?_, ?_, hvalues⟩
  · rw [hcounted]
    exact (reads_u32 count).bind hreads
  · unfold encodeTable
    rw [hlength, UInt32.ofNat_toNat, hcounted]
    exact hcanonical.behind _

/-- The sections of a payload as they are written. -/
def encodeSections (m : Module) : Bytes :=
  Bytes.text m.name ++ encodeTable Bytes.text m.strings ++ encodeTable Function.encode m.functions ++
    encodeTable Class.encode m.classes

/-- What stands behind the sections: the table of imports if the flags say so, and the entry. -/
def encodeRest (flags : UInt32) (m : Module) : Bytes :=
  (if flags &&& hasNatives != 0 then encodeTable Bytes.text m.natives else []) ++ Bytes.u32 m.entry

theorem encodePayload_eq (m : Module) :
    m.encodePayload = m.encodeSections ++ encodeRest m.writtenFlags m := by
  unfold encodePayload encodeSections encodeRest
  rw [writtenFlags_hasNatives]
  cases m.natives.isEmpty with
  | true => exact List.append_assoc _ _ _
  | false => exact List.append_assoc _ _ _

/-- **A spelling of the sections of a module**, and a module such as stands behind these flags. -/
structure Spelled (word : UInt32) (m : Module) (sections : Bytes) (listed : List UInt8) : Prop where
  flags : m.flags = word
  natives : (word &&& hasNatives != 0) = false → m.natives = []
  stored : Reads sectionBooleans sections listed
  canonical : Canonical sections m.encodeSections listed
  values : listed.map (· != 0) = m.booleans

/-- **What makes a payload**: a spelling of its sections, and behind it the rest as it is written. -/
theorem takes_payload (flags : UInt32) : Takes (decodePayload flags) fun m bs =>
    ∃ sections listed, bs = sections ++ encodeRest flags m ∧ Spelled flags m sections listed := by
  unfold decodePayload
  refine (takes_text.yields yields_text).bind fun name named hname =>
    ((takes_table takes_text).yields (yields_table yields_text)).bind fun strings pooled hstrings =>
      ((takes_table Function.takes).yields (yields_table Function.yields)).bind
        fun functions bodies hfunctions =>
          (spelledBy_table Class.takes).bind fun classes declared hclasses => ?_
  obtain ⟨rfl, hnameFits⟩ := hname
  obtain ⟨rfl, hstringsFit⟩ := hstrings
  obtain ⟨rfl, hfunctionsFit⟩ := hfunctions
  obtain ⟨lists, hreads, hcanonical, hvalues⟩ := hclasses
  have hspelled (natives : List String) (entry : UInt32)
      (hnatives : (flags &&& hasNatives != 0) = false → natives = []) :
      Spelled flags { flags, name, strings, functions, classes, natives, entry }
        (Bytes.text name ++ (encodeTable Bytes.text strings ++
          (encodeTable Function.encode functions ++ declared))) lists.flatten := by
    refine ⟨rfl, hnatives, ?_, ?_, hvalues⟩
    · exact (reads_text hnameFits).bind
        ((reads_table hstringsFit fun s hs => reads_text hs).bind
          ((reads_table hfunctionsFit fun f hf => Function.reads hf).bind (hreads.map _)))
    · unfold encodeSections
      simp only [List.append_assoc]
      exact ((hcanonical.behind _).behind _).behind _
  split
  · rename_i hflag
    refine (takes_table takes_text).bind fun natives imported himported =>
      takes_u32.map _ fun entry last hlast => ?_
    refine ⟨_, _, ?_, hspelled natives entry fun hclear => absurd hclear ?_⟩
    · unfold encodeRest
      rw [if_pos hflag, himported, hlast]
      simp only [List.append_assoc]
    · rw [hflag]
      decide
  · rename_i hflag
    refine (takes_pure (R := fun natives bs => natives = [] ∧ bs = []) ⟨rfl, rfl⟩).bind
      fun natives none hnone => takes_u32.map _ fun entry last hlast => ?_
    obtain ⟨rfl, rfl⟩ := hnone
    refine ⟨_, _, ?_, hspelled [] entry fun _ => rfl⟩
    unfold encodeRest
    rw [if_neg hflag, hlast]
    simp only [List.append_assoc, List.nil_append]

end Module

end EmbeddedVm
