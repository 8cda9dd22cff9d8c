import Mathlib.Data.List.Perm.Basic
import Mathlib.Data.List.Forall2

namespace Freja.Kleene

-- The truth values of strong Kleene logic.
inductive Truth where
  | no
  | unknown
  | yes
  deriving DecidableEq, Repr

namespace Truth

variable {a b c d : Truth}

def ofBool : Bool → Truth
  | true => .yes
  | false => .no

-- A test of a fact that may not be there yet.
def known (fact : Option α) (test : α → Bool) : Truth := fact.elim .unknown (fun value => ofBool (test value))

def not : Truth → Truth
  | .no => .yes
  | .unknown => .unknown
  | .yes => .no

def and : Truth → Truth → Truth
  | .no,_ | _,.no => .no
  | .yes,.yes => .yes
  | _,_ => .unknown

def or : Truth → Truth → Truth
  | .yes,_ | _,.yes => .yes
  | .no,.no => .no
  | _,_ => .unknown

def conj (values : List Truth) : Truth := values.foldr and .yes

def disj (values : List Truth) : Truth := values.foldr or .no

variable (a b : Truth)

theorem and_assoc (c : Truth) : (a.and b).and c = a.and (b.and c) := by
  cases a <;> cases b <;> cases c <;> rfl

theorem and_comm : a.and b = b.and a := by cases a <;> cases b <;> rfl

theorem or_assoc (c : Truth) : (a.or b).or c = a.or (b.or c) := by
  cases a <;> cases b <;> cases c <;> rfl

theorem or_comm : a.or b = b.or a := by cases a <;> cases b <;> rfl

@[simp] theorem yes_and : Truth.yes.and a = a := by cases a <;> rfl

@[simp] theorem no_or : Truth.no.or a = a := by cases a <;> rfl

@[simp] theorem no_and : Truth.no.and a = .no := by cases a <;> rfl

@[simp] theorem and_no : a.and .no = .no := by cases a <;> rfl

@[simp] theorem yes_or : Truth.yes.or a = .yes := by cases a <;> rfl

@[simp] theorem or_yes : a.or .yes = .yes := by cases a <;> rfl

theorem conj_perm (same : first.Perm second) : conj first = conj second := by
  have commutes : LeftCommutative and := ⟨fun a b c => by rw [← and_assoc,and_comm a b,and_assoc]⟩
  exact same.foldr_eq Truth.yes

theorem disj_perm (same : first.Perm second) : disj first = disj second := by
  have commutes : LeftCommutative or := ⟨fun a b c => by rw [← or_assoc,or_comm a b,or_assoc]⟩
  exact same.foldr_eq Truth.no

-- The order of knowledge: an unknown value may still become either of the others.
def Below (a b : Truth) : Prop := a = .unknown ∨ a = b

theorem Below.refl : Below a a := .inr rfl

variable {a b}

theorem Below.definite (below : Below a b) (known : a ≠ .unknown) : b = a := by
  rcases below with lost | same
  · exact absurd lost known
  · exact same.symm

theorem Below.not (below : Below a b) : Below a.not b.not := by
  rcases below with rfl | rfl
  · exact .inl rfl
  · exact .refl _

theorem Below.and (left : Below a b) (right : Below c d) : Below (a.and c) (b.and d) := by
  rcases left with rfl | rfl <;> rcases right with rfl | rfl
  · exact .inl rfl
  · cases c with
    | no => rw [and_no,and_no]; exact .refl _
    | unknown | yes => exact .inl rfl
  · cases a with
    | no => rw [no_and,no_and]; exact .refl _
    | unknown | yes => exact .inl rfl
  · exact .refl _

theorem Below.or (left : Below a b) (right : Below c d) : Below (a.or c) (b.or d) := by
  rcases left with rfl | rfl <;> rcases right with rfl | rfl
  · exact .inl rfl
  · cases c with
    | yes => rw [or_yes,or_yes]; exact .refl _
    | unknown | no => exact .inl rfl
  · cases a with
    | yes => rw [yes_or,yes_or]; exact .refl _
    | unknown | no => exact .inl rfl
  · exact .refl _

theorem Below.known {fact more : Option α} (less : fact = none ∨ fact = more) (test : α → Bool) :
    Below (Truth.known fact test) (Truth.known more test) := by
  rcases less with rfl | rfl
  · exact .inl rfl
  · exact .refl _

theorem and_definite (left : a ≠ .unknown) (right : b ≠ .unknown) : a.and b ≠ .unknown := by
  cases a <;> cases b <;> first | exact absurd rfl left | exact absurd rfl right | exact Truth.noConfusion

theorem or_definite (left : a ≠ .unknown) (right : b ≠ .unknown) : a.or b ≠ .unknown := by
  cases a <;> cases b <;> first | exact absurd rfl left | exact absurd rfl right | exact Truth.noConfusion

theorem not_definite (definite : a ≠ .unknown) : a.not ≠ .unknown := by
  cases a <;> first | exact absurd rfl definite | exact Truth.noConfusion

theorem and_yes_iff : a.and b = .yes ↔ a = .yes ∧ b = .yes := by cases a <;> cases b <;> simp [and]

theorem or_yes_iff : a.or b = .yes ↔ a = .yes ∨ b = .yes := by cases a <;> cases b <;> simp [or]

theorem ofBool_definite (value : Bool) : ofBool value ≠ .unknown := by cases value <;> exact Truth.noConfusion

end Truth

end Freja.Kleene
