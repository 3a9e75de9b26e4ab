import Mathlib.Logic.Relation
import ProbeWeave.Proofs.Files.Places

/-! # What copying a directory does

A copy is a sequence of small steps: directories are made below the target, and files are put there with
the bytes that the same names lead to below the source. Source and target may overlap, so the bytes are
those at the time of the step. What every step keeps, a whole copy keeps.
-/

namespace ProbeWeave.Files.FileTree

open Relation

/-- Whether none of some names is left out. -/
def Passes (patterns names : List String) : Prop :=
  ∀ name ∈ names, isLeftOut patterns name = false

variable {patterns source target names within : List String} {t t' : FileTree} {name : String}
  {bytes : ByteArray}

theorem passes_append {more : List String} :
    Passes patterns (names ++ more) ↔ Passes patterns names ∧ Passes patterns more := by
  simp only [Passes, List.mem_append, or_imp, forall_and]

/-- A step of a copy. -/
inductive CopyStep (patterns source target : List String) : FileTree → FileTree → Prop where
  /-- A directory is made for one of the source. -/
  | directory {t t' : FileTree} {within : List String} (passes : Passes patterns within)
      (there : t.at? (source ++ within) = some .directory) (makes : Makes t t' (target ++ within)) :
      CopyStep patterns source target t t'
  /-- A file is put into its directory. -/
  | file {t : FileTree} {within : List String} {name : String} {bytes : ByteArray}
      (passes : Passes patterns (within ++ [name]))
      (there : t.at? (source ++ (within ++ [name])) = some (.file bytes))
      (parent : t.at? (target ++ within) = some .directory)
      (free : t.at? (target ++ (within ++ [name])) ≠ some .directory) :
      CopyStep patterns source target t (t.put (target ++ (within ++ [name])) (.file bytes))
  /-- A file is put into a directory of its own name. -/
  | into {t : FileTree} {within : List String} {name : String} {bytes : ByteArray}
      (passes : Passes patterns (within ++ [name]))
      (there : t.at? (source ++ (within ++ [name])) = some (.file bytes))
      (parent : t.at? (target ++ (within ++ [name])) = some .directory)
      (free : t.at? (target ++ (within ++ [name, name])) ≠ some .directory) :
      CopyStep patterns source target t (t.put (target ++ (within ++ [name, name])) (.file bytes))

/-- What steps of a copy come to. -/
abbrev CopySteps (patterns source target : List String) : FileTree → FileTree → Prop :=
  ReflTransGen (CopyStep patterns source target)

/-- No step takes a directory away. -/
theorem CopyStep.keeps_directory (step : CopyStep patterns source target t t')
    (here : t.at? names = some .directory) : t'.at? names = some .directory := by
  cases step with
  | directory passes there makes => exact makes.stays here
  | file passes there parent free =>
    rw [at?_put_of_ne (by rintro rfl; exact free here), here]
  | into passes there parent free =>
    rw [at?_put_of_ne (by rintro rfl; exact free here), here]

/-- No step takes a file away. -/
theorem CopyStep.keeps_file (step : CopyStep patterns source target t t')
    (here : ∃ bytes, t.at? names = some (.file bytes)) : ∃ bytes, t'.at? names = some (.file bytes) := by
  obtain ⟨bytes, here⟩ := here
  have put (goal : List String) (bytes' : ByteArray) (deep : goal ≠ []) :
      ∃ bytes, (t.put goal (.file bytes')).at? names = some (.file bytes) := by
    by_cases same : names = goal
    · exact ⟨bytes', by rw [same, at?_put_self deep]⟩
    · exact ⟨bytes, by rw [at?_put_of_ne same, here]⟩
  cases step with
  | directory passes there makes => exact ⟨bytes, makes.stays here⟩
  | file passes there parent free => exact put _ _ (by simp)
  | into passes there parent free => exact put _ _ (by simp)

/-- What every step keeps, all steps together keep. -/
theorem CopySteps.keep {P : FileTree → Prop}
    (each : ∀ t t', CopyStep patterns source target t t' → P t → P t')
    (steps : CopySteps patterns source target t t') (before : P t) : P t' := by
  induction steps with
  | refl => exact before
  | tail _ step ih => exact each _ _ step ih

/-- Copying a file is a step, or nothing is done. -/
theorem copyFile_steps (passes : Passes patterns (within ++ [name]))
    (there : t.at? (source ++ (within ++ [name])) = some (.file bytes))
    (parent : t.at? (target ++ within) = some .directory) :
    CopySteps patterns source target t
      (t.copyFile (source ++ (within ++ [name])) (target ++ (within ++ [name])) name bytes).1 := by
  unfold copyFile
  dsimp only
  by_cases inside : t.isDirectory (target ++ (within ++ [name])) = true
  · rw [if_pos inside]
    split
    · exact .refl
    · split
      · exact .refl
      · rename_i free
        simp only [List.append_assoc, List.singleton_append] at free ⊢
        exact .single (.into passes there (isDirectory_iff.mp inside)
          fun here => free (isDirectory_iff.mpr here))
  · rw [if_neg inside]
    split
    · exact .refl
    · exact .single (.file passes there parent fun here => inside (isDirectory_iff.mpr here))

/-- Copying what a directory lists is a sequence of steps if copying a directory is. -/
theorem copyEntries_steps
    {copy : FileTree → List String → List String → FileTree × Except Fault (List EntryFault)}
    (deeper : ∀ t within, Passes patterns within →
      CopySteps patterns source target t (copy t (source ++ within) (target ++ within)).1)
    (passes : Passes patterns within) {entries : List (String × Content)}
    (listed : ∀ entry ∈ entries, isLeftOut patterns entry.1 = false)
    (ready : t.at? (target ++ within) = some .directory) :
    CopySteps patterns source target t
      (copyEntries copy (source ++ within) (target ++ within) entries t).1 := by
  induction entries generalizing t with
  | nil => exact .refl
  | cons entry rest ih =>
    obtain ⟨name, content⟩ := entry
    obtain ⟨first, others⟩ := List.forall_mem_cons.mp listed
    have further : Passes patterns (within ++ [name]) :=
      passes_append.mpr ⟨passes, by simpa [Passes] using first⟩
    have onwards {middle : FileTree} (steps : CopySteps patterns source target t middle) :
        CopySteps patterns source target t
          (copyEntries copy (source ++ within) (target ++ within) rest middle).1 :=
      steps.trans (ih others (CopySteps.keep (fun _ _ step => step.keeps_directory) steps ready))
    rw [copyEntries]
    dsimp only
    rw [List.append_assoc, List.append_assoc]
    split
    · rename_i bytes there
      exact onwards (copyFile_steps further there ready)
    · have steps := deeper t _ further
      generalize copy t (source ++ (within ++ [name])) (target ++ (within ++ [name])) = outcome at steps
      obtain ⟨middle, fault | faults⟩ := outcome
      · exact onwards steps
      · exact onwards steps

/-- Copying a directory below the source is a sequence of steps. -/
theorem copyWithin_steps (levels : Nat) (passes : Passes patterns within) (t : FileTree) :
    CopySteps patterns source target t
      (copyWithin patterns levels t (source ++ within) (target ++ within)).1 := by
  induction levels generalizing t within with
  | zero => exact .refl
  | succ levels ih =>
    rw [copyWithin]
    split
    · exact .refl
    · exact .refl
    · rename_i there
      dsimp only
      split
      · exact .refl
      · rename_i ready made
        have makes := makes_of_makeTarget made
        refine .head (.directory passes there makes) ?_
        refine copyEntries_steps (fun t within passes => ih passes t) passes ?_ (makes.made _ List.prefix_rfl)
        intro entry member
        simpa using (List.mem_filter.mp member).2

theorem copyDirectory_steps (t : FileTree) (patterns source target : List String) :
    CopySteps patterns source target t (t.copyDirectory patterns source target).1 := by
  unfold copyDirectory
  generalize 2 * t.depth + target.length + 2 = levels
  have steps : CopySteps patterns source target t
      (copyWithin patterns levels t (source ++ []) (target ++ [])).1 :=
    copyWithin_steps levels (List.forall_mem_nil _) t
  rw [List.append_nil, List.append_nil] at steps
  generalize copyWithin patterns levels t source target = outcome at steps ⊢
  obtain ⟨after, fault | _ | _⟩ := outcome
  · exact steps
  · exact steps
  · exact steps

/-! ### What arrives -/

/-- What holds before a file of the source is copied, if it is not below the target itself. -/
structure Awaits (source target names : List String) (bytes : ByteArray) (t : FileTree) : Prop where
  connected : t.Connected
  there : t.at? (source ++ names) = some (.file bytes)
  free : t.at? (target ++ names) ≠ some .directory

theorem CopyStep.keeps_connected (step : CopyStep patterns source target t t')
    (connected : t.Connected) : t'.Connected := by
  cases step with
  | directory passes there makes => exact makes.connected connected
  | file passes there parent free =>
    refine connected.put ?_ free _
    rwa [← List.append_assoc, List.dropLast_concat]
  | into passes there parent free =>
    refine connected.put ?_ free _
    rwa [List.append_cons _ _ [_], ← List.append_assoc, List.dropLast_concat]

/-- A file that is not below the target stays as it is. -/
theorem CopyStep.keeps_source (step : CopyStep patterns source target t t')
    (apart : ¬target <+: names) (there : t.at? names = some (.file bytes)) :
    t'.at? names = some (.file bytes) := by
  cases step with
  | directory passes there' makes => exact makes.stays there
  | file passes there' parent free =>
    rwa [at?_put_of_ne (by rintro rfl; exact apart (List.prefix_append ..))]
  | into passes there' parent free =>
    rwa [at?_put_of_ne (by rintro rfl; exact apart (List.prefix_append ..))]

namespace Awaits

variable {more : List String}

/-- Nothing stands below a file that is awaited. -/
theorem nothing_below (awaits : Awaits source target names bytes t) (below : more ≠ [])
    {content : Content} : t.at? (source ++ (names ++ more)) ≠ some content := by
  intro here
  rw [← List.append_assoc] at here
  cases (awaits.connected.above here below).symm.trans awaits.there

/-- Where a file is awaited, steps put nothing but that file. -/
theorem step (apart : ¬target <+: source ++ names) (step : CopyStep patterns source target t t')
    (awaits : Awaits source target names bytes t) :
    Awaits source target names bytes t' ∧
      (t'.at? (target ++ names) = t.at? (target ++ names) ∨
        t'.at? (target ++ names) = some (.file bytes)) := by
  suffices same : t'.at? (target ++ names) = t.at? (target ++ names) ∨
      t'.at? (target ++ names) = some (.file bytes) by
    refine ⟨⟨step.keeps_connected awaits.connected, step.keeps_source apart awaits.there, ?_⟩, same⟩
    rcases same with same | here
    · rw [same]
      exact awaits.free
    · rw [here]
      exact nofun
  cases step with
  | directory passes there makes =>
    rcases makes.eq_or (target ++ names) with same | ⟨-, above, -⟩
    · exact .inl same
    · obtain ⟨more, rfl⟩ := (List.prefix_append_right_inj _).mp above
      by_cases last : more = []
      · rw [last, List.append_nil] at there
        cases there.symm.trans awaits.there
      · exact absurd there (awaits.nothing_below last)
  | file passes there parent free =>
    rename_i within name bytes'
    by_cases same : names = within ++ [name]
    · subst same
      cases there.symm.trans awaits.there
      exact .inr (at?_put_self (by intro root; exact free (by rw [root, at?_nil])))
    · exact .inl (at?_put_of_ne fun eq => same (List.append_cancel_left eq))
  | into passes there parent free =>
    rename_i within name bytes'
    by_cases same : names = within ++ [name, name]
    · subst same
      have above := awaits.connected _ _ awaits.there
      rw [List.append_cons _ _ [_], ← List.append_assoc, List.dropLast_concat] at above
      cases above.symm.trans there
    · exact .inl (at?_put_of_ne fun eq => same (List.append_cancel_left eq))

theorem steps (apart : ¬target <+: source ++ names) (steps : CopySteps patterns source target t t')
    (awaits : Awaits source target names bytes t) : Awaits source target names bytes t' :=
  CopySteps.keep (fun _ _ step before => (before.step apart step).1) steps awaits

/-- A file that arrived stays. -/
theorem stays (apart : ¬target <+: source ++ names) (steps : CopySteps patterns source target t t')
    (awaits : Awaits source target names bytes t)
    (arrived : t.at? (target ++ names) = some (.file bytes)) :
    t'.at? (target ++ names) = some (.file bytes) := by
  have kept := CopySteps.keep
    (P := fun t => Awaits source target names bytes t ∧ t.at? (target ++ names) = some (.file bytes))
    (fun t t' step before => by
      obtain ⟨awaits, same | here⟩ := before.1.step apart step
      · exact ⟨awaits, same.trans before.2⟩
      · exact ⟨awaits, here⟩)
    steps ⟨awaits, arrived⟩
  exact kept.2

end Awaits

/-- A list is copied by copying its first entry and then the others. -/
theorem copyEntries_cons
    (copy : FileTree → List String → List String → FileTree × Except Fault (List EntryFault))
    (source target : List String) (entry : String × Content) (rest : List (String × Content))
    (t : FileTree) :
    copyEntries copy source target (entry :: rest) t =
      ((copyEntries copy source target rest (copyEntries copy source target [entry] t).1).1,
        (copyEntries copy source target [entry] t).2 ++
          (copyEntries copy source target rest (copyEntries copy source target [entry] t).1).2) := by
  obtain ⟨name, content⟩ := entry
  simp only [copyEntries, List.append_nil]

/-- Without a fault, an entry brings the file that is awaited at it or below it. -/
theorem copyEntry_arrives
    {copy : FileTree → List String → List String → FileTree × Except Fault (List EntryFault)}
    {rest : List String} {content : Content}
    (brings : rest ≠ [] → ∀ t', copy t (source ++ (within ++ [name])) (target ++ (within ++ [name])) =
      (t', .ok []) → t'.at? (target ++ (within ++ name :: rest)) = some (.file bytes))
    (awaits : Awaits source target (within ++ name :: rest) bytes t)
    (copied : copyEntries copy (source ++ within) (target ++ within) [(name, content)] t = (t', [])) :
    t'.at? (target ++ (within ++ name :: rest)) = some (.file bytes) := by
  rw [copyEntries] at copied
  dsimp only at copied
  rw [copyEntries, List.append_assoc, List.append_assoc] at copied
  cases rest with
  | nil =>
    have free := isDirectory_eq_false_iff.mpr awaits.free
    rw [awaits.there] at copied
    simp only [copyFile, free, Bool.false_eq_true, if_false] at copied
    split at copied
    · cases copied
    · cases copied
      refine at?_put_self ?_
      intro root
      exact awaits.free (by rw [root, at?_nil])
  | cons next rest =>
    have above : t.at? (source ++ (within ++ [name])) = some .directory := by
      have there := awaits.there
      rw [List.append_cons, ← List.append_assoc] at there
      exact awaits.connected.above there (by simp)
    rw [above] at copied
    dsimp only at copied
    generalize outcome : copy t (source ++ (within ++ [name])) (target ++ (within ++ [name])) = result
      at copied
    obtain ⟨after, fault | faults⟩ := result
    · cases copied
    · obtain rfl : after = t' := congrArg Prod.fst copied
      have clean : faults ++ [] = [] := congrArg Prod.snd copied
      rw [List.append_nil] at clean
      exact brings (by simp) after (by rw [outcome, clean])

/-- Without a fault, copying what a directory lists brings the file that is awaited below it. -/
theorem copyEntries_arrives
    {copy : FileTree → List String → List String → FileTree × Except Fault (List EntryFault)}
    {rest : List String} (apart : ¬target <+: source ++ (within ++ name :: rest))
    (deeper : ∀ t within, Passes patterns within →
      CopySteps patterns source target t (copy t (source ++ within) (target ++ within)).1)
    (brings : rest ≠ [] → ∀ t, Awaits source target (within ++ name :: rest) bytes t → ∀ t',
      copy t (source ++ (within ++ [name])) (target ++ (within ++ [name])) = (t', .ok []) →
        t'.at? (target ++ (within ++ name :: rest)) = some (.file bytes))
    (passes : Passes patterns within) {entries : List (String × Content)}
    (listed : ∀ entry ∈ entries, isLeftOut patterns entry.1 = false)
    (member : name ∈ entries.map Prod.fst) (ready : t.at? (target ++ within) = some .directory)
    (awaits : Awaits source target (within ++ name :: rest) bytes t)
    (copied : copyEntries copy (source ++ within) (target ++ within) entries t = (t', [])) :
    t'.at? (target ++ (within ++ name :: rest)) = some (.file bytes) := by
  induction entries generalizing t with
  | nil => cases member
  | cons entry others ih =>
    obtain ⟨first, later⟩ := List.forall_mem_cons.mp listed
    have steps := copyEntries_steps deeper passes (List.forall_mem_singleton.mpr first) ready
    rw [copyEntries_cons, Prod.mk.injEq, List.append_eq_nil_iff] at copied
    obtain ⟨last, clean, cleaned⟩ := copied
    generalize one : copyEntries copy (source ++ within) (target ++ within) [entry] t = outcome
      at steps last clean cleaned
    obtain ⟨middle, faults⟩ := outcome
    obtain rfl : faults = [] := clean
    have ready' : middle.at? (target ++ within) = some .directory :=
      CopySteps.keep (fun _ _ step => step.keeps_directory) steps ready
    have awaits' := awaits.steps apart steps
    obtain ⟨other, content⟩ := entry
    by_cases here : name = other
    · subst here
      have arrived := copyEntry_arrives (fun below => brings below t awaits) awaits one
      exact last ▸ awaits'.stays apart (copyEntries_steps deeper passes later ready') arrived
    · rw [List.map_cons, List.mem_cons] at member
      exact ih later (member.resolve_left here) ready' awaits' (Prod.ext last cleaned)

/-- Without a fault, copying a directory brings the file that is awaited below it. -/
theorem copyWithin_arrives {levels : Nat} {rest : List String}
    (apart : ¬target <+: source ++ (within ++ rest)) (below : rest ≠ []) (deep : rest.length ≤ levels)
    (passes : Passes patterns (within ++ rest)) (awaits : Awaits source target (within ++ rest) bytes t)
    (copied : copyWithin patterns levels t (source ++ within) (target ++ within) = (t', .ok [])) :
    t'.at? (target ++ (within ++ rest)) = some (.file bytes) := by
  induction levels generalizing t t' within rest with
  | zero => exact absurd (List.length_eq_zero_iff.mp (Nat.le_zero.mp deep)) below
  | succ levels ih =>
    obtain ⟨name, rest, rfl⟩ := List.exists_cons_of_ne_nil below
    obtain ⟨before, after⟩ := passes_append.mp passes
    have directory : t.at? (source ++ within) = some .directory := by
      have there := awaits.there
      rw [← List.append_assoc] at there
      exact awaits.connected.above there below
    rw [copyWithin, directory] at copied
    dsimp only at copied
    split at copied
    · cases copied
    · rename_i ready made
      have makes := makes_of_makeTarget made
      have awaits' := awaits.steps apart (.single (.directory before directory makes))
      generalize outcome : copyEntries (copyWithin patterns levels) (source ++ within)
        (target ++ within) ((t.listing (source ++ within)).filter fun entry =>
          !isLeftOut patterns entry.1) ready = result at copied
      obtain ⟨last, faults⟩ := result
      obtain ⟨rfl, rfl⟩ : last = t' ∧ faults = [] := by simpa using copied
      refine copyEntries_arrives apart (fun t within passes => copyWithin_steps levels passes t) ?_
        before ?_ ?_ (makes.made _ List.prefix_rfl) awaits' outcome
      · intro below t awaits t' copied
        rw [List.append_cons] at apart passes awaits ⊢
        exact ih apart below (by simpa using deep) passes awaits copied
      · intro entry member
        simpa using (List.mem_filter.mp member).2
      · have there := awaits.there
        rw [List.append_cons, ← List.append_assoc, ← List.append_assoc] at there
        obtain ⟨content, here⟩ := awaits.connected.exists_above there
        obtain ⟨listed, member⟩ := mem_listing here
        refine List.mem_map.mpr ⟨(name, listed), List.mem_filter.mpr ⟨member, ?_⟩, rfl⟩
        simpa using after name List.mem_cons_self

/-- A copy that is complete brings every file that is not left out and not below the target. -/
theorem copyDirectory_arrives (apart : ¬target <+: source ++ names) (passes : Passes patterns names)
    (awaits : Awaits source target names bytes t)
    (copied : t.copyDirectory patterns source target = (t', .ok ())) :
    t'.at? (target ++ names) = some (.file bytes) := by
  obtain ⟨connected, there, free⟩ := awaits
  have deep := length_le_depth there
  rw [List.length_append] at deep
  unfold copyDirectory at copied
  generalize bound : 2 * t.depth + target.length + 2 = levels at copied
  generalize outcome : copyWithin patterns levels t source target = result at copied
  obtain ⟨after, fault | _ | _⟩ := result
  · cases copied
  · obtain rfl : after = t' := congrArg Prod.fst copied
    by_cases root : names = []
    · subst root
      rw [List.append_nil] at there
      obtain ⟨levels, rfl⟩ : ∃ n, levels = n + 1 := ⟨levels - 1, by omega⟩
      rw [copyWithin, there] at outcome
      cases outcome
    · have enough : names.length ≤ levels := by omega
      rw [← List.nil_append names] at apart passes there free ⊢
      exact copyWithin_arrives apart root enough passes ⟨connected, there, free⟩
        (by rwa [List.append_nil, List.append_nil])
  · cases copied

/-- Where a name is left out, nothing is put. -/
theorem CopyStep.keeps_left_out (step : CopyStep patterns source target t t')
    (leftOut : ¬Passes patterns names) : t'.at? (target ++ names) = t.at? (target ++ names) := by
  cases step with
  | directory passes there makes =>
    rcases makes.eq_or (target ++ names) with same | ⟨-, above, -⟩
    · exact same
    · obtain ⟨more, rfl⟩ := (List.prefix_append_right_inj _).mp above
      exact absurd (passes_append.mp passes).1 leftOut
  | file passes there parent free =>
    refine at?_put_of_ne ?_
    intro same
    exact leftOut (List.append_cancel_left same ▸ passes)
  | into passes there parent free =>
    refine at?_put_of_ne ?_
    intro same
    obtain rfl := List.append_cancel_left same
    apply leftOut
    rw [List.append_cons, passes_append]
    exact ⟨passes, (passes_append.mp passes).2⟩

end ProbeWeave.Files.FileTree
