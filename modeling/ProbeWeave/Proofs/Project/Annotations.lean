import Mathlib.Data.List.TakeWhile
import ProbeWeave.Project.Module
import ProbeWeave.Proofs.Syntax.TextRoom

/-! # Annotations that cannot be looked into

To find the classes that annotations name, texts in them are parsed. A text that breaks the grammar
names no class, but one with a surrogate or a null character is a fault, and so is whatever leads to
it. Otherwise the attributes of all classes are typed.
-/

namespace ProbeWeave

namespace Syntax

theorem Breach.fault_ne_zeroCharacter (breach : Breach) : breach.fault ≠ .zeroCharacter := by
  cases breach <;> simp [fault]

/-- Only the null character is reported as one. -/
theorem parseExpression_zeroCharacter {source : String} :
    parseExpression source = .error .zeroCharacter ↔ '\x00' ∈ source.toList := by
  unfold parseExpression
  split
  · rename_i zero
    simpa using zero
  · rename_i other
    refine iff_of_false ?_ (by simpa using other)
    extract_lets bound inner rule
    split
    · simp
    · simpa using Breach.fault_ne_zeroCharacter _

theorem parseModule_zeroCharacter {source : String} :
    parseModule source = .error .zeroCharacter ↔ '\x00' ∈ source.toList := by
  unfold parseModule
  split
  · rename_i zero
    simpa using zero
  · rename_i other
    refine iff_of_false ?_ (by simpa using other)
    extract_lets bound
    split
    · simp
    · simpa using Breach.fault_ne_zeroCharacter _

end Syntax

namespace Project

open Syntax Outcome

/-- A text holds a surrogate or a null character. -/
def Unreadable (points : List Nat) : Prop :=
  ∃ c ∈ points, isSurrogate c = true ∨ Char.ofNat c = '\x00'

theorem surrogateFault?_eq_none {points : List Nat} :
    surrogateFault? points = none ↔ ∀ c ∈ points, isSurrogate c = false := by
  unfold surrogateFault?
  split
  · rename_i all
    refine iff_of_true rfl fun c member => ?_
    rw [List.dropWhile_eq_nil_iff] at all
    simpa using all c member
  · rename_i c rest cut
    refine iff_of_false (by simp) fun plain => ?_
    have member : c ∈ points := (List.dropWhile_sublist _).subset (cut ▸ List.mem_cons_self)
    have stopped := List.head_dropWhile_not (fun c => !isSurrogate c) (l := points) (by simp [cut])
    simp [cut, plain c member] at stopped

/-- A text is not read if and only if it is unreadable; what breaks the grammar only names no class. -/
theorem textExpression_fails {points : List Nat} :
    (∃ fault, textExpression points = .error fault) ↔ Unreadable points := by
  have zero : '\x00' ∈ (String.ofList (points.map Char.ofNat)).toList ↔
      ∃ c ∈ points, Char.ofNat c = '\x00' := by
    rw [String.toList_ofList, List.mem_map]
  unfold textExpression Unreadable
  cases surrogates : surrogateFault? points with
  | some fault =>
    refine iff_of_true ⟨fault, rfl⟩ ?_
    by_contra plain
    have none : surrogateFault? points = none := surrogateFault?_eq_none.mpr fun c member => by
      by_contra odd
      exact plain ⟨c, member, .inl (by simpa using odd)⟩
    rw [surrogates] at none
    cases none
  | none =>
    have plain := surrogateFault?_eq_none.mp surrogates
    have same : (∃ c ∈ points, isSurrogate c = true ∨ Char.ofNat c = '\x00') ↔
        ∃ c ∈ points, Char.ofNat c = '\x00' := by
      refine exists_congr fun c => and_congr_right fun member => ?_
      rw [plain c member]
      simp
    rw [same, ← zero, ← parseExpression_zeroCharacter]
    dsimp only
    cases parseExpression (String.ofList (points.map Char.ofNat)) with
    | ok e => simp
    | error fault => cases fault <;> simp

/-- An annotation is an unreadable text, or leads to one. -/
inductive Faulty : Expr → Prop
  | unreadable {points : List Nat} {mark : Bool} (odd : Unreadable points) :
    Faulty (.constant (.text points mark))
  | text {points : List Nat} {mark : Bool} {e : Expr} (read : textExpression points = .ok (some e))
    (faulty : Faulty e) : Faulty (.constant (.text points mark))
  | optional {value index : Expr} (generic : isOptional value = true) (faulty : Faulty index) :
    Faulty (.subscript value index)
  | left {left right : Expr} (faulty : Faulty left) : Faulty (.binary left .bitOr right)
  | right {left right : Expr} (faulty : Faulty right) : Faulty (.binary left .bitOr right)

theorem textExpression_textBound {points : List Nat} {e : Expr}
    (read : textExpression points = .ok (some e)) : textBound e ≤ points.length := by
  unfold textExpression at read
  split at read
  · cases read
  · split at read
    · rename_i parsed
      cases read
      have short := parseExpression_textBound parsed
      rwa [← String.length_toList, String.toList_ofList, List.length_map] at short
    · cases read
    · cases read

theorem faulty_text {points : List Nat} {mark : Bool} :
    Faulty (.constant (.text points mark)) ↔
      Unreadable points ∨ ∃ e, textExpression points = .ok (some e) ∧ Faulty e := by
  constructor
  · intro faulty
    cases faulty with
    | unreadable odd => exact .inl odd
    | text read faulty => exact .inr ⟨_, read, faulty⟩
  · rintro (odd | ⟨e, read, faulty⟩)
    · exact .unreadable odd
    · exact .text read faulty

theorem faulty_subscript {value index : Expr} :
    Faulty (.subscript value index) ↔ isOptional value = true ∧ Faulty index := by
  constructor
  · intro faulty
    cases faulty with
    | optional generic faulty => exact ⟨generic, faulty⟩
  · rintro ⟨generic, faulty⟩
    exact .optional generic faulty

theorem faulty_bitOr {left right : Expr} :
    Faulty (.binary left .bitOr right) ↔ Faulty left ∨ Faulty right := by
  constructor
  · intro faulty
    cases faulty with
    | left faulty => exact .inl faulty
    | right faulty => exact .inr faulty
  · exact fun faulty => faulty.elim .left .right

/-- Other annotations are looked at from outside only. -/
theorem not_faulty_other {e : Expr} (noText : ∀ points mark, e ≠ .constant (.text points mark))
    (noSubscript : ∀ value index, e ≠ .subscript value index)
    (noUnion : ∀ left right, e ≠ .binary left .bitOr right) : ¬ Faulty e := by
  intro faulty
  cases faulty with
  | unreadable | text => exact noText _ _ rfl
  | optional => exact noSubscript _ _ rfl
  | left | right => exact noUnion _ _ rfl

theorem succeeds_candidatesWithin {bound : Nat} {e : Expr} (enough : textBound e ≤ bound) :
    Succeeds (candidatesWithin bound e) ↔ ¬ Faulty e := by
  fun_induction candidatesWithin bound e with
  | case1 | case2 =>
    exact iff_of_true (succeeds_ok _) (not_faulty_other (by simp) (by simp) (by simp))
  | case3 bound value index generic ih =>
    rw [ih enough, faulty_subscript]
    simp [generic]
  | case4 bound value index plain =>
    refine iff_of_true (succeeds_ok _) ?_
    rw [faulty_subscript]
    simp [plain]
  | case5 bound left right ihLeft ihRight =>
    obtain ⟨leftEnough, rightEnough⟩ := Nat.max_le.mp enough
    rw [faulty_bitOr, not_or, ← ihLeft leftEnough, ← ihRight rightEnough]
    exact succeeds_bind fun _ => succeeds_bind_pure
  | case6 bound points mark ih =>
    have short : points.length ≤ bound := Nat.le_of_succ_le_succ enough
    rw [faulty_text, ← textExpression_fails]
    cases read : textExpression points with
    | error fault =>
      refine iff_of_false ?_ (by simp)
      rintro ⟨found, ⟨⟩⟩
    | ok found =>
      cases found with
      | none => exact iff_of_true (succeeds_pure _) (by simp)
      | some e =>
        refine (ih e (Nat.le_trans (textExpression_textBound read) short)).trans ?_
        simp
  | case7 bound e noName noMember noSubscript noUnion noText =>
    refine iff_of_true (succeeds_ok _) (not_faulty_other ?_ noSubscript noUnion)
    rintro points mark rfl
    obtain ⟨b, rfl⟩ := Nat.exists_eq_add_one.mpr (Nat.lt_of_lt_of_le (Nat.succ_pos _) enough)
    exact noText b points mark rfl rfl

/-- The bound on texts in texts is never reached. -/
theorem succeeds_candidates (e : Expr) : Succeeds (candidates e) ↔ ¬ Faulty e :=
  succeeds_candidatesWithin (Nat.le_refl _)

theorem succeeds_candidate? (e : Expr) : Succeeds (candidate? (some e)) ↔ ¬ Faulty e := by
  rw [← succeeds_candidates, candidate?]
  cases candidates e with
  | error fault => exact iff_of_false (by rintro ⟨_, ⟨⟩⟩) (by rintro ⟨_, ⟨⟩⟩)
  | ok found => exact iff_of_true ⟨_, rfl⟩ ⟨_, rfl⟩

/-! ### Attributes -/

namespace ClassInfo

/-- The annotation of a name in the body of a class. -/
def bodyAnnotations : Stmt → List Expr
  | .annotated _ (.name ..) type _ _ => [type]
  | _ => []

/-- The annotation of an attribute of the instance that no call makes the value of. -/
def instanceAnnotations (self : String) : Node → List Expr
  | .stmt (.annotated _ (.member (.name owner _) _) type value _) =>
    if owner == self && (maker? value).isNone then [type] else []
  | _ => []

/-- The annotations of attributes in a method that has an instance. -/
def methodAnnotations (method : Definition) : List Expr :=
  match method.firstPositional? with
  | some self => (scopeNodes method.body).flatMap (instanceAnnotations self)
  | none => []

/-- The annotations that are looked into for the attributes of a class. -/
def annotations (c : ClassInfo) : List Expr :=
  c.body.flatMap bodyAnnotations ++ c.methods.values.flatMap methodAnnotations

theorem succeeds_addClassLevel (attributes : Dictionary String Expr) (s : Stmt) :
    Succeeds (addClassLevel attributes s) ↔ ∀ type ∈ bodyAnnotations s, ¬ Faulty type := by
  fun_cases addClassLevel attributes s with
  | case1 => exact iff_of_true (succeeds_ok _) (by simp [bodyAnnotations])
  | case2 lines id use type value simple =>
    rw [succeeds_bind_pure, succeeds_candidate?]
    simp [bodyAnnotations]
  | case3 _ _ other =>
    have none : bodyAnnotations s = [] := by
      fun_cases bodyAnnotations s with
      | case1 => exact (other _ _ _ _ _ _ rfl).elim
      | case2 => rfl
    exact iff_of_true (succeeds_ok _) (by simp [none])

theorem succeeds_addInstanceLevel (self : String) (attributes : Dictionary String Expr) (n : Node) :
    Succeeds (addInstanceLevel self attributes n) ↔
      ∀ type ∈ instanceAnnotations self n, ¬ Faulty type := by
  fun_cases addInstanceLevel self attributes n with
  | case1 => exact iff_of_true (succeeds_ok _) (by simp [instanceAnnotations])
  | case2 _ _ _ _ _ _ _ _ made known =>
    exact iff_of_true (succeeds_ok _) (by simp [instanceAnnotations, known])
  | case3 _ _ _ _ type _ _ own known =>
    rw [succeeds_bind_pure, succeeds_candidate?]
    simp [instanceAnnotations, known, own]
  | case4 _ _ _ _ _ _ _ foreign =>
    exact iff_of_true (succeeds_ok _) (by simp [instanceAnnotations, foreign])
  | case5 _ _ other =>
    have none : instanceAnnotations self n = [] := by
      fun_cases instanceAnnotations self n with
      | case1 => exact (other _ _ _ _ _ _ _ rfl).elim
      | case2 => exact (other _ _ _ _ _ _ _ rfl).elim
      | case3 => rfl
    exact iff_of_true (succeeds_ok _) (by simp [none])

/-- The attributes of a class are typed unless one of its annotations is faulty. -/
theorem succeeds_withAttributes (c : ClassInfo) :
    Succeeds c.withAttributes ↔ ∀ type ∈ c.annotations, ¬ Faulty type := by
  have body := succeeds_foldlM succeeds_addClassLevel c.body .empty
  have methods (attributes : Dictionary String Expr) (method : Definition) :
      Succeeds (match method.firstPositional? with
        | some self => (scopeNodes method.body).foldlM (addInstanceLevel self) attributes
        | none => .ok attributes) ↔ ∀ type ∈ methodAnnotations method, ¬ Faulty type := by
    unfold methodAnnotations
    cases method.firstPositional? with
    | none => exact iff_of_true (succeeds_ok _) (by simp)
    | some self =>
      rw [List.forall_mem_flatMap]
      exact succeeds_foldlM (succeeds_addInstanceLevel self) _ _
  rw [withAttributes, annotations, List.forall_mem_append, List.forall_mem_flatMap,
    List.forall_mem_flatMap, ← body]
  refine succeeds_bind fun attributes => ?_
  rw [succeeds_bind_pure]
  exact succeeds_foldlM methods _ attributes

end ClassInfo

theorem Module.withAttributes_unit {m typed : Module} (success : m.withAttributes = .ok typed) :
    typed.unit = m.unit := by
  simp only [withAttributes, bind_eq_ok, pure_eq_ok] at success
  obtain ⟨_, -, rfl⟩ := success
  rfl

theorem Module.succeeds_withAttributes (m : Module) :
    Succeeds m.withAttributes ↔
      ∀ c ∈ m.classes.values, ∀ type ∈ c.annotations, ¬ Faulty type := by
  have each (entry : String × ClassInfo) :
      Succeeds (do return (entry.1, ← entry.2.withAttributes) : Except Fault (String × ClassInfo)) ↔
        ∀ type ∈ entry.2.annotations, ¬ Faulty type := by
    rw [succeeds_bind_pure, ClassInfo.succeeds_withAttributes]
  rw [withAttributes, succeeds_bind_pure, succeeds_mapM]
  simp only [each, Dictionary.values, List.forall_mem_map]

end Project

end ProbeWeave
