import ProbeWeave.Project.Origin

/-! # What lookups ask for

Every lookup asks for the bases of classes one after the other. With what is known of bases it
comes to an end, and then it comes to the same end when more is known; or it waits for one class of
the project, and then nothing else that may become known gets it any further.
-/

namespace ProbeWeave.Project

open Syntax Outcome

namespace Project

variable {p : Project} {α β : Type}

/-- Whether the bases of all classes of the project that are known here are known there as well. -/
def Spreads (p : Project) (known more : BaseSearch) : Prop :=
  ∀ c, p.HoldsClass c → ∀ bs, known c = .ok bs → more c = .ok bs

theorem Spreads.refl (known : BaseSearch) : p.Spreads known known :=
  fun _ _ _ found => found

/--
Whether a lookup asks for the bases of classes of the project one after the other: what is known
settles it, or there is a class that it waits for.
-/
def Inquires (p : Project) (lookup : BaseSearch → Except Fault α) : Prop :=
  ∀ known, p.KeepsBases known →
    (∃ a, ∀ more, p.Spreads known more → lookup more = .ok a) ∨
    ∃ c, p.HoldsClass c ∧ (∃ fault, known c = .error fault) ∧
      ∀ more, p.Spreads known more → ∀ fault, more c = .error fault → lookup more = .error fault

namespace Inquires

theorem ok (a : α) : p.Inquires fun _ => .ok a :=
  fun _ _ => .inl ⟨a, fun _ _ => rfl⟩

theorem ask {c : ClassInfo} (held : p.HoldsClass c) : p.Inquires fun known => known c := by
  intro known _
  cases answer : known c with
  | ok bs => exact .inl ⟨bs, fun more spreads => spreads c held bs answer⟩
  | error fault => exact .inr ⟨c, held, ⟨fault, answer⟩, fun _ _ _ stuck => stuck⟩

/-- A second step asks after the first, given what came of that. -/
theorem bind {lookup : BaseSearch → Except Fault α} {next : α → BaseSearch → Except Fault β}
    {P : α → Prop} (first : p.Inquires lookup)
    (given : ∀ known, p.KeepsBases known → Gives (lookup known) P)
    (second : ∀ a, P a → p.Inquires (next a)) :
    p.Inquires fun known => lookup known >>= fun a => next a known := by
  intro known keeps
  dsimp only
  rcases first known keeps with ⟨a, settled⟩ | ⟨c, held, unknown, waits⟩
  · have found := settled known (.refl known)
    rcases second a (given known keeps a found) known keeps with
      ⟨b, settled'⟩ | ⟨c, held, unknown, waits⟩
    · refine .inl ⟨b, fun more spreads => ?_⟩
      rw [settled more spreads]
      exact settled' more spreads
    · refine .inr ⟨c, held, unknown, fun more spreads fault stuck => ?_⟩
      rw [settled more spreads]
      exact waits more spreads fault stuck
  · refine .inr ⟨c, held, unknown, fun more spreads fault stuck => ?_⟩
    rw [waits more spreads fault stuck]
    rfl

/-- A second step that asks after the first, whatever came of that. -/
theorem andThen {lookup : BaseSearch → Except Fault α} {next : α → BaseSearch → Except Fault β}
    (first : p.Inquires lookup) (second : ∀ a, p.Inquires (next a)) :
    p.Inquires fun known => lookup known >>= fun a => next a known :=
  first.bind (P := fun _ => True) (fun _ _ _ _ => trivial) fun a _ => second a

/-- A last step that asks for nothing. -/
theorem map {lookup : BaseSearch → Except Fault α} (first : p.Inquires lookup) (f : α → β) :
    p.Inquires fun known => do return f (← lookup known) :=
  first.andThen fun a => ok (f a)

theorem mapM {lookup : α → BaseSearch → Except Fault β} {as : List α}
    (each : ∀ a ∈ as, p.Inquires (lookup a)) :
    p.Inquires fun known => as.mapM fun a => lookup a known := by
  induction as with
  | nil => exact ok []
  | cons a rest ih =>
    obtain ⟨here, others⟩ := List.forall_mem_cons.mp each
    simp only [List.mapM_cons]
    exact here.andThen fun b => (ih others).map (b :: ·)

variable {lookup : BaseSearch → Except Fault α} {known more : BaseSearch}

/-- What comes of a lookup comes of it as well when more is known. -/
theorem monotone (inquires : p.Inquires lookup) (keeps : p.KeepsBases known)
    (spreads : p.Spreads known more) {a : α} (found : lookup known = .ok a) :
    lookup more = .ok a := by
  rcases inquires known keeps with ⟨b, settled⟩ | ⟨c, -, ⟨fault, unknown⟩, waits⟩
  · rw [settled known (.refl known)] at found
    cases found
    exact settled more spreads
  · rw [waits known (.refl known) fault unknown] at found
    cases found

/-- A lookup that fails waits for a class. -/
theorem waits (inquires : p.Inquires lookup) (keeps : p.KeepsBases known) {fault : Fault}
    (failed : lookup known = .error fault) :
    ∃ c, p.HoldsClass c ∧ known c = .error fault ∧
      ∀ more, p.Spreads known more → ∀ fault, more c = .error fault → lookup more = .error fault := by
  rcases inquires known keeps with ⟨a, settled⟩ | ⟨c, held, ⟨unknown, answer⟩, waits⟩
  · rw [settled known (.refl known)] at failed
    cases failed
  · rw [waits known (.refl known) unknown answer] at failed
    cases failed
    exact ⟨c, held, answer, waits⟩

/-- A lookup depends on nothing but the bases of the project's classes. -/
theorem congr (inquires : p.Inquires lookup) (keeps : p.KeepsBases known)
    (same : ∀ c, p.HoldsClass c → more c = known c) : lookup more = lookup known := by
  have spreads : p.Spreads known more := fun c held bs found => (same c held).trans found
  cases result : lookup known with
  | ok a => exact inquires.monotone keeps spreads result
  | error fault =>
    obtain ⟨c, held, unknown, waits⟩ := inquires.waits keeps result
    exact waits more spreads fault ((same c held).trans unknown)

end Inquires

/-! ### Each lookup -/

/-- How a method is found, given what is known of bases. -/
def findWith (p : Project) (known : BaseSearch) : MethodSearch :=
  fun c name => p.findFrom known [c] name

theorem findWith_keeps {known : BaseSearch} (keeps : p.KeepsBases known) :
    p.KeepsMethods (p.findWith known) :=
  fun _ name held => findFrom_holds keeps (by simpa using held) name

theorem searchLevel_inquires (name : String) (classes next met : List ClassInfo)
    (held : ∀ c ∈ classes, p.HoldsClass c) :
    p.Inquires fun known => searchLevel known name classes next met := by
  induction classes generalizing next met with
  | nil => exact .ok _
  | cons c rest ih =>
    obtain ⟨here, others⟩ := List.forall_mem_cons.mp held
    simp only [searchLevel]
    split
    · exact ih next met others
    · split
      · exact .ok _
      · exact (Inquires.ask here).andThen fun further => ih (next ++ further) (c :: met) others

theorem searchLevels_inquires (name : String) (levels : Nat) (classes met : List ClassInfo)
    (held : ∀ c ∈ classes, p.HoldsClass c) :
    p.Inquires fun known => searchLevels known name levels classes met := by
  induction levels generalizing classes met with
  | zero => exact .ok none
  | succ levels ih =>
    simp only [searchLevels]
    refine (searchLevel_inquires name classes [] met held).bind
      (fun known keeps => searchLevel_holds keeps name classes [] met held (by simp)) ?_
    rintro (d | ⟨next, met⟩) ⟨-, further⟩
    · exact .ok (some d)
    · dsimp only
      split
      · exact .ok none
      · exact ih next met (further next met rfl)

theorem findFrom_inquires {classes : List ClassInfo} (held : ∀ c ∈ classes, p.HoldsClass c)
    (name : String) : p.Inquires fun known => p.findFrom known classes name :=
  searchLevels_inquires name _ classes [] held

theorem findWith_inquires {c : ClassInfo} (held : p.HoldsClass c) (name : String) :
    p.Inquires fun known => p.findWith known c name :=
  findFrom_inquires (by simpa using held) name

theorem lookupWithin_inquires (steps : Nat) (dotted : String) :
    p.Inquires fun known => p.lookupWithin (p.findWith known) steps dotted := by
  induction steps generalizing dotted with
  | zero => exact .ok none
  | succ steps ih =>
    simp only [lookupWithin]
    split
    · exact .ok _
    · split
      · exact .ok _
      · refine (ih _).bind (fun known keeps => lookupWithin_holds (findWith_keeps keeps) steps _) ?_
        rintro (_ | m | c | d | _) owned
        · exact .ok none
        · dsimp only
          split
          · exact .ok _
          · exact .ok _
          · exact ih _
          · exact .ok none
        · exact (findWith_inquires (owned _ rfl) _).map _
        · exact .ok none
        · exact .ok _

theorem resolveName_inquires (m : Module) (name : String) :
    p.Inquires fun known => p.resolveName (p.findWith known) m name := by
  unfold resolveName
  split
  · exact .ok _
  · exact .ok _
  · exact lookupWithin_inquires _ _
  · exact .ok none

variable {m : Module} (held : m ∈ p.modules.values)

include held

theorem resolveParts_inquires (head : String) (rest : List String) :
    p.Inquires fun known => p.resolveParts (p.findWith known) m head rest := by
  unfold resolveParts
  split
  · exact resolveName_inquires m head
  · dsimp only
    split
    · exact .ok none
    · rename_i inClasses
      exact (findWith_inquires (holdsClass_of_get? held inClasses) _).map _
    · exact lookupWithin_inquires _ _
    · exact .ok none

theorem resolveExpr_inquires (e : Expr) :
    p.Inquires fun known => p.resolveExpr (p.findWith known) m e := by
  unfold resolveExpr
  split
  · exact resolveParts_inquires held _ _
  · exact .ok none

theorem resolveClass_inquires (e : Expr) :
    p.Inquires fun known => p.resolveClass (p.findWith known) m e := by
  refine (resolveExpr_inquires held e).andThen ?_
  rintro (_ | _ | c | _ | _)
  all_goals exact .ok _

omit held

/-- The bases of a class, given what is known of bases. -/
def basesWith (p : Project) (known : BaseSearch) : BaseSearch := fun c =>
  match p.modules.get? c.module with
  | none => .ok []
  | some m => do
    let found ← c.bases.mapM (p.resolveClass (p.findWith known) m)
    return found.filterMap id

theorem basesWithin_succ (n : Nat) : p.basesWithin (n + 1) = p.basesWith (p.basesWithin n) := by
  funext c
  rw [basesWithin, basesWith]
  rfl

/-- Finding the bases of a class asks for the bases of others, or of the class itself. -/
theorem basesWith_inquires (c : ClassInfo) : p.Inquires fun known => p.basesWith known c := by
  unfold basesWith
  split
  · exact .ok []
  · rename_i m inProject
    have held := Dictionary.mem_values_of_get? inProject
    exact (Inquires.mapM fun e _ => resolveClass_inquires held e).map _

end Project

end ProbeWeave.Project
