/-
# Reading leaves the files as they are

Of the requests that can be made of a file system, only one writes.  A program that makes the
others alone finds every file as it was, whatever it has asked for before (`ReadOnly`), and what
it finds out in the end is what it would have found out at first: the answers come from the state
in which it began (`run_bind_of_readOnly`, `run_mapM_of_readOnly`).

The statements follow the programs, one for each, from the requests upward to the search for
settings (`readOnly_resolve`) and to the targets of a run (`readOnly_targets`).  They are about any
file system that answers its requests without changing anything (`FileSystem.ReadsOnly`), of which
a tree of files in memory is one.
-/
import EditorSettings.FileTree
import EditorSettings.Targets.Walk

namespace EditorSettings

/-! ## 1. Actions that only read -/

section

variable {σ α β : Type}

/-- Whatever the state is, the action leaves it. -/
def ReadOnly (x : StateM σ α) : Prop := ∀ s, (x.run s).2 = s

/-- The answer that an action gives in a state. -/
def answer (x : StateM σ α) (s : σ) : α := (x.run s).1

theorem run_of_readOnly {x : StateM σ α} (h : ReadOnly x) (s : σ) : x.run s = (answer x s, s) :=
  Prod.ext rfl (h s)

/-- **What comes after an action that only reads begins where that began.** -/
theorem run_bind_of_readOnly {x : StateM σ α} (h : ReadOnly x) (f : α → StateM σ β) (s : σ) :
    (x >>= f).run s = (f (answer x s)).run s := by
  rw [StateT.run_bind, run_of_readOnly h]
  rfl

theorem readOnly_pure (a : α) : ReadOnly (pure a : StateM σ α) := fun _ => rfl

theorem ReadOnly.bind {x : StateM σ α} {f : α → StateM σ β} (hx : ReadOnly x)
    (hf : ∀ a, ReadOnly (f a)) : ReadOnly (x >>= f) := by
  intro s
  rw [run_bind_of_readOnly hx]
  exact hf _ s

/-- **Several actions that only read** each give the answer that they would give alone. -/
theorem run_mapM_of_readOnly {f : α → StateM σ β} :
    ∀ {l : List α}, (∀ a ∈ l, ReadOnly (f a)) → ∀ s,
      (l.mapM f).run s = (l.map fun a => answer (f a) s, s)
  | [], _, s => by
    rw [List.mapM_nil]
    rfl
  | a :: l, h, s => by
    have ih := run_mapM_of_readOnly (l := l) (fun b hb => h b (List.mem_cons_of_mem a hb)) s
    rw [List.mapM_cons, run_bind_of_readOnly (h a List.mem_cons_self), StateT.run_bind, ih]
    rfl

theorem ReadOnly.mapM {f : α → StateM σ β} {l : List α} (h : ∀ a ∈ l, ReadOnly (f a)) :
    ReadOnly (l.mapM f) := by
  intro s
  rw [run_mapM_of_readOnly h]

end

/-! ## 2. Requests -/

/-- The file system answers all requests but those to write without changing anything. -/
structure FileSystem.ReadsOnly {σ : Type} (fs : FileSystem (StateM σ)) : Prop where
  kind : ∀ p, ReadOnly (fs.kind p)
  readBytes : ∀ p, ReadOnly (fs.readBytes p)
  list : ∀ p, ReadOnly (fs.list p)

theorem FileTree.readsOnly_fileSystem (cwd : Path) : (FileTree.fileSystem cwd).ReadsOnly where
  kind _ _ := rfl
  readBytes _ _ := rfl
  list _ _ := rfl

section

variable {σ : Type} {fs : FileSystem (StateM σ)} (h : fs.ReadsOnly)

include h

namespace FileSystem

theorem readOnly_isFile (p : Path) : ReadOnly (fs.isFile p) := by
  refine (h.kind p).bind ?_
  intro kind
  split <;> exact readOnly_pure _

theorem readOnly_isDirectory (p : Path) : ReadOnly (fs.isDirectory p) := by
  refine (h.kind p).bind ?_
  intro kind
  split <;> exact readOnly_pure _

theorem readOnly_isThere (p : Path) : ReadOnly (fs.isThere p) := by
  refine (h.kind p).bind ?_
  intro kind
  split <;> exact readOnly_pure _

theorem readOnly_isDocument (p : Path) : ReadOnly (fs.isDocument p) := by
  refine (h.kind p).bind ?_
  intro kind
  split <;> exact readOnly_pure _

theorem readOnly_read (p : Path) : ReadOnly (fs.read p) := by
  refine (h.readBytes p).bind ?_
  intro content
  split
  · split <;> exact readOnly_pure _
  · exact readOnly_pure _

end FileSystem

/-! ## 3. The search for settings -/

namespace Cascade

open FileSystem

theorem readOnly_document? (r : Registry) (rules : Rules) (dir : Path) :
    ReadOnly (document? fs.provider r rules dir) := by
  refine (readOnly_isDocument h _).bind ?_
  intro isFile
  split
  · exact readOnly_pure _
  · exact readOnly_pure _
  · refine ReadOnly.bind ?_ ?_
    · refine (readOnly_read h _).bind ?_
      intro text
      split <;> exact readOnly_pure _
    · intro text
      split <;> exact readOnly_pure _

theorem readOnly_search (r : Registry) (rules : Rules) (roots : List Path) (path : String) :
    ∀ (dirs : List Path) (found : Settings),
      ReadOnly (search fs.provider r rules roots path found dirs)
  | [], _ => readOnly_pure _
  | dir :: above, found => by
    refine (readOnly_document? h r rules dir).bind ?_
    intro d?
    split
    · exact readOnly_pure _
    · dsimp only
      split
      · exact readOnly_pure _
      · exact (readOnly_search r rules roots path above _).bind fun _ => readOnly_pure _

/-- **Searching for settings only reads.** -/
theorem readOnly_resolve (r : Registry) (rules : Rules) (roots : List Path) (file : Path) :
    ReadOnly (resolve fs.provider r rules roots file) :=
  readOnly_search h r rules roots _ _ _

end Cascade

/-! ## 4. Targets -/

namespace Ignore

open FileSystem

theorem readOnly_load (file : Path) : ReadOnly (Rules.load fs file) := by
  refine (h.readBytes file).bind ?_
  intro content
  split <;> exact readOnly_pure _

theorem readOnly_sharedDirectory? (repository : Path) :
    ReadOnly (sharedDirectory? fs repository) := by
  refine (h.readBytes _).bind ?_
  intro content
  split
  · split <;> exact readOnly_pure _
  · exact readOnly_pure _
  · exact readOnly_pure _

theorem readOnly_repository? (dir : Path) : ReadOnly (repository? fs dir) := by
  refine (readOnly_isFile h _).bind ?_
  intro isFile
  split
  · refine (h.readBytes _).bind ?_
    intro content
    split
    · split
      · exact readOnly_sharedDirectory? h _
      · exact readOnly_pure _
    · exact readOnly_pure _
    · exact readOnly_pure _
  · exact readOnly_pure _

theorem readOnly_ofDirectory (dir : Path) : ReadOnly (Level.ofDirectory fs dir) := by
  refine (readOnly_load h _).bind fun own => (readOnly_load h _).bind fun shared => ?_
  refine (readOnly_repository? h dir).bind ?_
  rintro ⟨repository?, problems⟩
  have hthere : ∀ {α : Type} (f : Bool → Bool → α), ReadOnly (do
      let git ← fs.isThere (dir.join ".git")
      let jj ← fs.isThere (dir.join ".jj")
      pure (f git jj)) := fun f =>
    (readOnly_isThere h _).bind fun _ => (readOnly_isThere h _).bind fun _ => readOnly_pure _
  cases repository? with
  | some repository => exact (readOnly_load h _).bind fun _ => hthere _
  | none => exact (readOnly_pure _).bind fun _ => hthere _

end Ignore

namespace Walk

theorem readOnly_levelsAbove (base : Path) : ReadOnly (levelsAbove fs base) :=
  (ReadOnly.mapM fun dir _ => Ignore.readOnly_ofDirectory h dir).bind fun _ => readOnly_pure _

theorem readOnly_files (w : Walk) :
    ∀ (depth : Nat) (above : List Ignore.Level) (dir : Path),
      ReadOnly (files fs w depth above dir)
  | 0, _, _ => readOnly_pure _
  | depth + 1, above, dir => by
    refine (Ignore.readOnly_ofDirectory h dir).bind fun level => (h.list dir).bind ?_
    intro names
    split
    · exact readOnly_pure _
    · refine ReadOnly.bind (ReadOnly.mapM ?_) fun _ => readOnly_pure _
      intro name _
      refine (h.kind _).bind ?_
      intro kind
      split
      · split
        · exact readOnly_pure _
        · exact readOnly_files w depth _ _
      · exact readOnly_pure _
      · exact readOnly_pure _

end Walk

namespace FileSystem

theorem readOnly_targetsOf (p : Path) : ReadOnly (fs.targetsOf p) := by
  refine (readOnly_isDirectory h p).bind ?_
  intro isDirectory
  split
  · exact readOnly_pure _
  · split
    · exact readOnly_pure _
    · refine (Walk.readOnly_levelsAbove h _).bind ?_
      intro levels
      split
      · exact (Walk.readOnly_files h _ _ _ _).bind fun _ => readOnly_pure _
      · exact readOnly_pure _

/-- **Finding the targets only reads.** -/
theorem readOnly_targets : ∀ paths : List Path, ReadOnly (fs.targets paths)
  | [] => readOnly_pure _
  | p :: more => by
    refine (readOnly_targetsOf h p).bind ?_
    intro found
    split
    · exact readOnly_pure _
    · refine (readOnly_targets more).bind ?_
      intro others
      split <;> exact readOnly_pure _

end FileSystem

end

end EditorSettings
