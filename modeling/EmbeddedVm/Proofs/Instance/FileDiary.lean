import EmbeddedVm.Proofs.Instance.FileNotes
import EmbeddedVm.Proofs.Instance.Use

/-!
# The diary of a file

Another process may rewrite the file of a module at any time, and gives it a signature that it has
not had before. The diary of a file says what has happened to it: the signatures it has had, what
was read from it last, and which signatures were written down by a thread that had read the file
when it had another. Those are signatures that an edit has overtaken, because a load or a
replacement takes the signature after it has read.

Every other signature that is written down has been met: if the file still has it, then what was
read last is what the file holds, unless a check has noticed the change and is yet to read. Every
region of a thread keeps this (`Minds`), and so does every edit.
-/

namespace EmbeddedVm.Instance.Watching

variable {η ρ σ α : Type}

/-! ## 1. The diary of a file -/

/-- What a file holds, if it can be read. -/
def contents? (files : Files) (path : String) : Option Bytes := (files.read path).toOption

/-- What a check saw that found nothing new. -/
structure Answer where
  thread : ThreadId
  /-- What the file held. -/
  contents : Option Bytes
  /-- What a load or replacement had read from it last. -/
  latest : Option Bytes
  /-- An edit had overtaken the signature. -/
  overtaken : Bool
  /-- The threads whose check had noticed a change and that had not read the file since. -/
  awaited : List ThreadId
deriving DecidableEq

/-- **An answer as it should be**: what was read last is what the file held. -/
def Answer.Right (a : Answer) : Prop :=
  a.overtaken = false → a.awaited = [] → a.latest = a.contents

/-- What has happened to a file. -/
structure Diary (σ : Type) where
  /-- The signatures it has had. -/
  had : List Signature
  /-- What a load or replacement read from it last. -/
  latest : Option Bytes := none
  /-- The signature it had when a thread read it last. -/
  readAt : ThreadId → Option Signature := fun _ => none
  /-- The signatures written down for it by one that had not read it so. -/
  overtaken : List Signature := []
  /-- The threads whose check has noticed a change and that have not read it since. A machine whose
      module is final refuses the replacement, and its thread stays here. -/
  awaited : List ThreadId := []
  /-- The checks that found it there and nothing new. -/
  answers : List Answer := []
  /-- Whatever else the host keeps. -/
  other : σ

/-- A file that nobody has looked at yet. -/
def Diary.blank (files : Files) (path : String) (other : σ) : Diary σ where
  had := (files.signature? path).toList
  other

variable (path : String)

/-- A thread reads the file. -/
def Diary.read (d : Diary σ) (me : ThreadId) (files : Files) : Diary σ :=
  { d with
    latest := contents? files path
    readAt := fun u => if u = me then files.signature? path else d.readAt u
    awaited := d.awaited.filter (· ≠ me) }

/-- A signature is written down that the file had not when it was read. -/
def Diary.overtake (d : Diary σ) (signature : Option Signature) : Diary σ :=
  { d with overtaken := signature.toList ++ d.overtaken }

/-- A check finds the file there and nothing new. -/
def Diary.answer (d : Diary σ) (me : ThreadId) (signature : Signature) (files : Files) : Diary σ :=
  { d with
    answers :=
      ⟨me, contents? files path, d.latest, d.overtaken.contains signature, d.awaited⟩ :: d.answers }

/-- **The notes of what is done about the file at `path`.** -/
def diary : FileNotes (World η ρ (Diary σ)) where
  read me p w := if p = path then { w with session := w.session.read path me w.files } else w
  compared me p previous w :=
    match w.files.signature? path with
    | some s =>
      if p = path ∧ some s = previous then
        { w with session := w.session.answer path me s w.files }
      else w
    | none => w
  noticed me p signature w :=
    if p = path then
      { w with session := { w.session with awaited := me :: w.session.awaited } }
    else if w.inst.core.loadedFile = some path then
      { w with session := w.session.overtake signature }
    else w
  recorded me p signature w :=
    if p = some path ∧ w.session.readAt me ≠ signature then
      { w with session := w.session.overtake signature }
    else w

/-- The file is as it was, or has a signature that it has not had. -/
def Renewed (had : List Signature) (files files' : Files) : Prop :=
  (contents? files' path = contents? files path ∧ files'.signature? path = files.signature? path) ∨
    ∀ s ∈ files'.signature? path, s ∉ had

instance (had : List Signature) (files files' : Files) :
    Decidable (Renewed path had files files') :=
  inferInstanceAs (Decidable ((_ ∧ _) ∨ _))

/-- The world with other files. -/
def rewritten (files : Files) (w : World η ρ (Diary σ)) : World η ρ (Diary σ) :=
  { w with
    files
    session := { w.session with had := (files.signature? path).toList ++ w.session.had } }

/-- Another process changes files, and gives the file only signatures that it has not had. -/
def rewrite (edit : Files → Files) : Act η ρ (Diary σ) Unit :=
  Task.change fun w =>
    if Renewed path w.session.had w.files (edit w.files) then rewritten path (edit w.files) w else w

/-- A change that leaves the files, what is written down of them, and the diary. -/
structure Leaves (w w' : World η ρ (Diary σ)) : Prop where
  loadedFile : w'.inst.core.loadedFile = w.inst.core.loadedFile
  signature : w'.inst.core.signature = w.inst.core.signature
  files : w'.files = w.files
  session : w'.session = { w.session with other := w'.session.other }

/-- **What a thread may start**: anything that has to do with files, changes of files as another
    process makes them, and any code that leaves all of it. -/
inductive Starts (host : Host η ρ (Diary σ)) (me : ThreadId) :
    Program (Work η) (World η ρ (Diary σ)) → Prop where
  | request (r : Request) : Starts host me (r.performNoted (diary path) host me).toProgram
  | rewrite (edit : Files → Files) : Starts host me (rewrite path edit).toProgram
  | aside {t : Act η ρ (Diary σ) Unit} (h : t.Keeps Leaves) : Starts host me t.toProgram

/-- Listeners that leave the files and the diary. -/
def Listening (host : Host η ρ (Diary σ)) : Prop :=
  ∀ me label done, (host.reloaded me label done).Keeps Leaves

/-! ## 2. What holds of a diary -/

section Facts

variable (w w' : World η ρ (Diary σ)) (s : Signature)

/-- The file was read when it had a signature, or since: if it still has it, what was read last is
    what it holds. -/
structure Met : Prop where
  had : s ∈ w.session.had
  latest : w.files.signature? path = some s → w.session.latest = contents? w.files path

/-- **What may be said of a signature that is written down**: an edit has overtaken it, or the file
    was met with it unless some thread is to read it yet. -/
def Reliable : Prop :=
  s ∈ w.session.overtaken ∨ s ∈ w.session.had ∧ (w.session.awaited = [] → Met path w s)

/-- **What holds of the diary at any time.** -/
structure Sound : Prop where
  had : ∀ s, w.files.signature? path = some s → s ∈ w.session.had
  readAt : ∀ u s, w.session.readAt u = some s → Met path w s
  recorded : w.inst.core.loadedFile = some path →
    ∀ s, w.inst.core.signature = some s → Reliable path w s
  answers : ∀ a ∈ w.session.answers, a.Right

/-- What is known of signatures stays known. -/
structure Advances : Prop where
  had : ∀ s ∈ w.session.had, s ∈ w'.session.had
  reliable : ∀ s, Reliable path w s → Reliable path w' s

/-- **A change that keeps the diary right**, whatever its thread is doing. -/
def Minds : Prop := Sound path w → Sound path w' ∧ Advances path w w'

end Facts

variable {path} {w w' : World η ρ (Diary σ)} {s : Signature} {me : ThreadId}

theorem Met.reliable (h : Met path w s) : Reliable path w s := .inr ⟨h.had, fun _ => h⟩

/-! ## 3. Every region keeps it -/

/-- A change that leaves the file, and what was read from it. -/
structure Spares (w w' : World η ρ (Diary σ)) : Prop where
  files : w'.files = w.files
  had : w'.session.had = w.session.had
  latest : w'.session.latest = w.session.latest
  readAt : w'.session.readAt = w.session.readAt
  overtaken : ∀ s ∈ w.session.overtaken, s ∈ w'.session.overtaken
  awaited : w'.session.awaited = [] → w.session.awaited = []

theorem Spares.met (h : Spares w w') (hm : Met path w s) : Met path w' s := by
  refine ⟨?_, ?_⟩
  · rw [h.had]
    exact hm.had
  · rw [h.files, h.latest]
    exact hm.latest

theorem Spares.advances (h : Spares w w') : Advances path w w' where
  had := by
    rw [h.had]
    exact fun _ hs => hs
  reliable s hs := by
    rcases hs with hs | ⟨hhad, hmet⟩
    · exact .inl (h.overtaken s hs)
    · exact .inr ⟨h.had ▸ hhad, fun hawaited => h.met (hmet (h.awaited hawaited))⟩

/-- What is written down after such a change, and what was answered, is left to be shown. -/
theorem Spares.minds (h : Spares w w')
    (hrecorded : Sound path w → w'.inst.core.loadedFile = some path →
      ∀ s, w'.inst.core.signature = some s → Reliable path w' s)
    (hanswers : Sound path w → ∀ a ∈ w'.session.answers, a.Right) : Minds path w w' := by
  intro hw
  refine ⟨⟨?_, fun u s hs => ?_, hrecorded hw, hanswers hw⟩, h.advances⟩
  · rw [h.files, h.had]
    exact hw.had
  · rw [h.readAt] at hs
    exact h.met (hw.readAt u s hs)

theorem minds_of_leaves (h : Leaves w w') : Minds path w w' := by
  obtain ⟨hfile, hsignature, hfiles, hsession⟩ := h
  have hspares : Spares w w' := by
    refine ⟨hfiles, ?_, ?_, ?_, ?_, ?_⟩ <;> rw [hsession]
    · exact fun _ hs => hs
    · exact id
  refine hspares.minds (fun hw hl s hs => ?_) fun hw => ?_
  · rw [hfile] at hl
    rw [hsignature] at hs
    exact hspares.advances.reliable s (hw.recorded hl s hs)
  · rw [hsession]
    exact hw.answers

theorem leaves_of_aside (h : w.Aside me w') : Leaves w w' where
  loadedFile := congrArg Core.loadedFile h.core
  signature := congrArg Core.signature h.core
  files := h.files
  session := by rw [h.session]

theorem minds_of_aside (me : ThreadId) (w w' : World η ρ (Diary σ)) (h : w.Aside me w') :
    Minds path w w' :=
  minds_of_leaves (leaves_of_aside h)

theorem minds_refl (w : World η ρ (Diary σ)) : Minds path w w :=
  fun hw => ⟨hw, fun _ hs => hs, fun _ hs => hs⟩

/-- **Who reads the file meets it**, with whatever signature it has and had. -/
theorem minds_read (me : ThreadId) (p : String) (w : World η ρ (Diary σ)) :
    Minds path w ((diary path).read me p w) := by
  unfold diary
  dsimp only
  split
  · intro hw
    have hmet : ∀ s ∈ w.session.had,
        Met path { w with session := w.session.read path me w.files } s :=
      fun s hs => ⟨hs, fun _ => rfl⟩
    have hreliable : ∀ s, Reliable path w s →
        Reliable path { w with session := w.session.read path me w.files } s := by
      intro s hs
      rcases hs with hs | ⟨hhad, -⟩
      · exact .inl hs
      · exact (hmet s hhad).reliable
    refine ⟨⟨hw.had, fun u s hs => ?_, fun hl s hs => hreliable s (hw.recorded hl s hs),
      hw.answers⟩, fun _ hs => hs, hreliable⟩
    replace hs : (if u = me then w.files.signature? path else w.session.readAt u) = some s := hs
    split at hs
    · exact hmet s (hw.had s hs)
    · exact hmet s (hw.readAt u s hs).had
  · exact minds_refl w

/-- **A signature that is written down after a load or replacement** is that of the file as its
    thread read it, or an edit has overtaken it. -/
theorem minds_recorded (me : ThreadId) (w : World η ρ (Diary σ)) (core : Core) :
    Minds path w ((diary path).recorded me core.loadedFile core.signature
      { w with inst := { w.inst with core } }) := by
  unfold diary
  dsimp only
  split
  · refine Spares.minds ⟨rfl, rfl, rfl, rfl, fun _ hs => List.mem_append_right _ hs, id⟩
      (fun _ _ s hs => .inl ?_) fun hw => hw.answers
    exact List.mem_append_left _ (Option.mem_toList.mpr hs)
  · rename_i hkept
    have hspares : Spares w { w with inst := { w.inst with core } } :=
      ⟨rfl, rfl, rfl, rfl, fun _ hs => hs, id⟩
    refine hspares.minds (fun hw hl s hs => ?_) fun hw => hw.answers
    have hread : w.session.readAt me = core.signature :=
      Decidable.byContradiction fun hne => hkept ⟨hl, hne⟩
    exact (hspares.met (hw.readAt me s (hread.trans hs))).reliable

/-- A check that knows what may be said of the signature it compares with answers right. -/
theorem minds_compared (me : ThreadId) {p : String} {previous : Option Signature}
    {w : World η ρ (Diary σ)} (hk : p = path → ∀ s, previous = some s → Reliable path w s) :
    Minds path w ((diary path).compared me p previous w) := by
  unfold diary
  dsimp only
  split
  · rename_i s hfile
    split
    · rename_i hp
      have hspares : Spares w { w with session := w.session.answer path me s w.files } :=
        ⟨rfl, rfl, rfl, rfl, fun _ hs => hs, id⟩
      refine hspares.minds (fun hw hl s hs => hspares.advances.reliable s (hw.recorded hl s hs))
        fun hw a ha => ?_
      rcases List.mem_cons.mp ha with rfl | ha
      · intro hovertaken hawaited
        rcases hk hp.1 s hp.2.symm with hs | ⟨-, hmet⟩
        · have hcontains : w.session.overtaken.contains s = true := List.contains_iff_mem.mpr hs
          cases hcontains.symm.trans hovertaken
        · exact (hmet hawaited).latest hfile
      · exact hw.answers a ha
    · exact minds_refl w
  · exact minds_refl w

/-- A signature that a check writes down is one that the file had; its thread is to read it yet. -/
theorem minds_noticed (me : ThreadId) {p : String} {signature : Option Signature}
    {w : World η ρ (Diary σ)} (hk : p = path → ∀ s, signature = some s → s ∈ w.session.had) :
    Minds path w ((diary path).noticed me p signature { w with
      inst := { w.inst with core := { w.inst.core with signature } } }) := by
  unfold diary
  dsimp only
  split
  · rename_i hp
    refine Spares.minds ⟨rfl, rfl, rfl, rfl, fun _ hs => hs, nofun⟩
      (fun _ _ s hs => .inr ⟨hk hp s hs, nofun⟩) fun hw => hw.answers
  · split
    · refine Spares.minds ⟨rfl, rfl, rfl, rfl, fun _ hs => List.mem_append_right _ hs, id⟩
        (fun _ _ s hs => .inl ?_) fun hw => hw.answers
      exact List.mem_append_left _ (Option.mem_toList.mpr hs)
    · rename_i hother
      exact Spares.minds ⟨rfl, rfl, rfl, rfl, fun _ hs => hs, id⟩
        (fun _ hl => absurd hl hother) fun hw => hw.answers

/-- **An edit spares what was met**: it gives the file no signature that it had before. -/
theorem minds_rewritten {files : Files} (h : Renewed path w.session.had w.files files) :
    Minds path w (rewritten path files w) := by
  intro hw
  have hkept : ∀ s ∈ w.session.had, s ∈ (rewritten path files w).session.had :=
    fun _ hs => List.mem_append_right _ hs
  have hmet : ∀ s, Met path w s → Met path (rewritten path files w) s := by
    refine fun s hs => ⟨hkept s hs.had, fun hfile => ?_⟩
    rcases h with ⟨hcontents, hsame⟩ | hnew
    · exact (hs.latest (hsame.symm.trans hfile)).trans hcontents.symm
    · exact absurd hs.had (hnew s hfile)
  have hreliable : ∀ s, Reliable path w s → Reliable path (rewritten path files w) s := by
    intro s hs
    rcases hs with hs | ⟨hhad, hs⟩
    · exact .inl hs
    · exact .inr ⟨hkept s hhad, fun hawaited => hmet s (hs hawaited)⟩
  exact ⟨⟨fun s hs => List.mem_append_left _ (Option.mem_toList.mpr hs),
    fun u s hs => hmet s (hw.readAt u s hs), fun hl s hs => hreliable s (hw.recorded hl s hs),
    hw.answers⟩, hkept, hreliable⟩

theorem keeps_rewrite (edit : Files → Files) :
    (rewrite path edit : Act η ρ (Diary σ) Unit).Keeps (Minds path) := by
  unfold rewrite Task.change
  refine Task.keeps_atomically fun w => ?_
  dsimp only
  split
  · rename_i h
    exact minds_rewritten h
  · exact minds_refl w

end EmbeddedVm.Instance.Watching
