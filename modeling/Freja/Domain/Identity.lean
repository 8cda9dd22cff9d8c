import Freja.Foundation.Bytes

namespace Freja.Domain
open Bytes

def maximumTextIdentifierBytes : Nat := 128

inductive IdError where
  | empty (kind : String)
  | tooLong (kind : String) (maximum : Nat)
  | invalidCharacter (kind : String) (character : Char)
  | zeroPolicyGeneration
  | zeroAuditSequence
  deriving DecidableEq, Repr

def isIdentifierCharacter (character : Char) : Bool :=
  character.isAlphanum || character == '-' || character == '_' || character == '.'

def validateStringId (value kind : String) : Except IdError Unit :=
  if value.isEmpty then .error (.empty kind)
  else if value.utf8ByteSize > maximumTextIdentifierBytes then .error (.tooLong kind maximumTextIdentifierBytes)
  else
    match value.toList.find? (fun character => !isIdentifierCharacter character) with
    | some character => .error (.invalidCharacter kind character)
    | none => .ok ()

def accepted : Except ε Unit → Bool
  | .ok () => true
  | .error _ => false

-- Rule and detector identifiers differ only in the kind their errors name.
structure TextId (kind : String) where
  text : String
  valid : accepted (validateStringId text kind) = true
  deriving DecidableEq, Repr

abbrev RuleId := TextId "rule ID"

abbrev DetectorId := TextId "detector ID"

def TextId.new {kind : String} (value : String) : Except IdError (TextId kind) :=
  match outcome : validateStringId value kind with
  | .ok () => .ok ⟨value,by rw [outcome]; rfl⟩
  | .error error => .error error

theorem TextId.new_exact {kind : String} (value : String) (id : TextId kind) :
    TextId.new value = .ok id ↔ id.text = value := by
  unfold TextId.new
  split
  · rename_i outcome
    constructor
    · intro same
      cases same
      rfl
    · intro same
      subst same
      rfl
  · rename_i error outcome
    refine ⟨nofun,fun same => ?_⟩
    have valid := id.valid
    rw [same,outcome] at valid
    cases valid

structure PolicyGeneration where
  value : Nat
  nonzero : 0 < value
  fits : value ≤ u64Max
  deriving DecidableEq, Repr

def PolicyGeneration.initial : PolicyGeneration := ⟨1,by decide,by decide⟩

structure AuditSequence where
  value : Nat
  nonzero : 0 < value
  fits : value ≤ u64Max
  deriving DecidableEq, Repr

namespace AuditSequence

def first : AuditSequence := ⟨1,by decide,by decide⟩

def new (value : Nat) : Except IdError AuditSequence :=
  if h : 0 < value ∧ value ≤ u64Max then .ok ⟨value,h.1,h.2⟩ else .error .zeroAuditSequence

def checkedNext (sequence : AuditSequence) : Option AuditSequence :=
  if fits : sequence.value + 1 ≤ u64Max then some ⟨sequence.value + 1,Nat.succ_pos _,fits⟩ else none

@[ext] theorem ext {a b : AuditSequence} (same : a.value = b.value) : a = b := by
  cases a
  cases b
  cases same
  rfl

theorem checkedNext_exact (sequence next : AuditSequence) :
    sequence.checkedNext = some next ↔ next.value = sequence.value + 1 := by
  unfold checkedNext
  split
  · rw [Option.some.injEq]
    exact ⟨fun same => same ▸ rfl,fun same => AuditSequence.ext same.symm⟩
  · rename_i exhausted
    refine ⟨nofun,fun same => absurd ?_ exhausted⟩
    rw [← same]
    exact next.fits

end AuditSequence

-- Session and transaction identifiers are random UUIDs, only compared for equality.
structure SessionId where
  uuid : Nat
  deriving DecidableEq, Repr

structure TransactionId where
  uuid : Nat
  deriving DecidableEq, Repr

end Freja.Domain
