import Freja.Policy.Hook

namespace Freja.Policy
open Bytes

-- A plan puts values under a name.
def HeadMutationPlan.Adds (plan : HeadMutationPlan) (name : String) : Prop :=
  ∃ value, .set name value ∈ plan.headers ∨ .append name value ∈ plan.headers

def InteractiveDecision.headPlan : InteractiveDecision → Option HeadMutationPlan
  | .editHeaders plan => some plan
  | .modifyRequest plan => some plan.head
  | .continue | .reject | .replaceBody _ | .cancelModification => none

theorem validateMutableHeader_ok : validateMutableHeader name = .ok () ↔ name ∉ protectedHeaders := by
  unfold validateMutableHeader
  split
  · rename_i guarded
    exact ⟨(fun done => by cases done),fun free => absurd guarded free⟩
  · rename_i free
    exact ⟨fun _ => free,fun _ => rfl⟩

-- A plan is accepted as a whole or not at all, and then its steps are taken in order.
theorem applyHeadMutation_ok : applyHeadMutation headers plan = .ok edited ↔
    (∀ mutation ∈ plan.headers, mutation.name ∉ protectedHeaders) ∧
      edited = plan.headers.foldl HeaderMutation.apply headers := by
  obtain ⟨mutations⟩ := plan
  unfold applyHeadMutation
  dsimp only
  induction mutations generalizing headers with
  | nil =>
      constructor
      · intro done
        cases done
        exact ⟨(fun _ member => absurd member List.not_mem_nil),rfl⟩
      · intro known
        rw [known.2]
        rfl
  | cons mutation rest ih =>
      rw [List.foldlM_cons,List.forall_mem_cons,List.foldl_cons,and_assoc,← ih]
      cases checked : validateMutableHeader mutation.name with
      | ok =>
          have free := validateMutableHeader_ok.mp checked
          exact ⟨fun done => ⟨free,done⟩,And.right⟩
      | error =>
          refine ⟨(fun done => by cases done),?_⟩
          intro known
          rw [validateMutableHeader_ok.mpr known.1] at checked
          cases checked

theorem HeaderMutation.apply_getAll (headers : HeaderMap) (mutation : HeaderMutation) {field : String}
    (apart : field ≠ mutation.name) : (HeaderMutation.apply headers mutation).getAll field = headers.getAll field := by
  cases mutation with
  | set other value => exact headers.getAll_insert_of_ne value apart
  | append other value => exact headers.getAll_append_of_ne value apart
  | remove => exact headers.getAll_remove_of_ne apart

theorem HeaderMutation.apply_containsKey (headers : HeaderMap) (mutation : HeaderMutation) {field : String}
    (there : (HeaderMutation.apply headers mutation).containsKey field = true) :
    headers.containsKey field = true ∨ ∃ value, mutation = .set field value ∨ mutation = .append field value := by
  cases mutation with
  | set other value =>
      rcases (headers.containsKey_update other field value _).mp there with before | same
      · exact .inl before
      · exact .inr ⟨value,.inl (same ▸ rfl)⟩
  | append other value =>
      rcases (headers.containsKey_update other field value _).mp there with before | same
      · exact .inl before
      · exact .inr ⟨value,.inr (same ▸ rfl)⟩
  | remove other => exact .inl ((headers.containsKey_remove other field).mp there).1

-- From one head to a later one: the host stays, and every name but that of the
-- length was there before or is one that the plans may add.
structure Rewrites (plans : List HeadMutationPlan) (before after : HeaderMap) : Prop where
  host : after.getAll "host" = before.getAll "host"
  present : ∀ name, after.containsKey name = true → name = "content-length" ∨ before.containsKey name = true ∨
    (name ∉ protectedHeaders ∧ ∃ plan ∈ plans, plan.Adds name)

namespace Rewrites

variable {headers : HeaderMap}

theorem same (headers : HeaderMap) : Rewrites [] headers headers := ⟨rfl,fun _ there => .inr (.inl there)⟩

theorem trans (first : Rewrites plans before middle) (second : Rewrites more middle after) :
    Rewrites (plans ++ more) before after where
  host := second.host.trans first.host
  present := by
    intro name there
    rcases second.present name there with length | between | ⟨free,plan,member,adds⟩
    · exact .inl length
    · rcases first.present name between with length | early | ⟨free,plan,member,adds⟩
      · exact .inl length
      · exact .inr (.inl early)
      · exact .inr (.inr ⟨free,plan,List.mem_append_left _ member,adds⟩)
    · exact .inr (.inr ⟨free,plan,List.mem_append_right _ member,adds⟩)

theorem remove (headers : HeaderMap) (apart : "host" ≠ name) : Rewrites [] headers (headers.remove name) where
  host := headers.getAll_remove_of_ne apart
  present := fun other there => .inr (.inl ((headers.containsKey_remove name other).mp there).1)

theorem removeAll (names : List String) (apart : "host" ∉ names) (headers : HeaderMap) :
    Rewrites [] headers (names.foldl HeaderMap.remove headers) := by
  induction names generalizing headers with
  | nil => exact same headers
  | cons name rest ih =>
      obtain ⟨here,later⟩ := not_or.mp (mt List.mem_cons.mpr apart)
      exact (remove headers here).trans (ih later (headers.remove name))

theorem length (headers : HeaderMap) (value : List UInt8) : Rewrites [] headers (headers.insert "content-length" value) where
  host := headers.getAll_insert_of_ne value (by decide)
  present := by
    intro name there
    rcases (headers.containsKey_update "content-length" name value _).mp there with before | same
    · exact .inr (.inl before)
    · exact .inl same

theorem normalizeReplacedBodyHeaders (headers : HeaderMap) :
    Rewrites [] headers (Policy.normalizeReplacedBodyHeaders headers) := removeAll _ (by decide) headers

theorem setContentLength (headers : HeaderMap) (count : Nat) :
    Rewrites [] headers (Policy.setContentLength headers count) := by
  have bare := removeAll ["transfer-encoding","trailer"] (by decide) headers
  exact bare.trans (length _ _)

theorem applyHeadMutation (done : Policy.applyHeadMutation headers plan = .ok edited) :
    Rewrites [plan] headers edited := by
  obtain ⟨free,result⟩ := applyHeadMutation_ok.mp done
  rw [result]
  -- The invariant is about the steps taken so far, all of which stand in the plan.
  suffices steps : ∀ (mutations : List HeaderMutation) (headers : HeaderMap), (∀ mutation ∈ mutations, mutation ∈ plan.headers) →
      Rewrites [plan] headers (mutations.foldl HeaderMutation.apply headers) from
    steps plan.headers headers (fun _ member => member)
  intro mutations
  induction mutations with
  | nil => exact fun headers _ => ⟨rfl,fun _ there => .inr (.inl there)⟩
  | cons mutation rest ih =>
      intro headers within
      obtain ⟨mine,others⟩ := List.forall_mem_cons.mp within
      have later := ih (HeaderMutation.apply headers mutation) others
      have apart : "host" ≠ mutation.name := by
        intro same
        exact free mutation mine (same ▸ (by decide))
      refine ⟨later.host.trans (HeaderMutation.apply_getAll headers mutation apart),?_⟩
      intro name there
      rcases later.present name there with named | before | added
      · exact .inl named
      · rcases HeaderMutation.apply_containsKey headers mutation before with early | ⟨value,same⟩
        · exact .inr (.inl early)
        · have naming : mutation.name = name := by
            rcases same with same | same <;> rw [same] <;> rfl
          refine .inr (.inr ⟨naming ▸ free mutation mine,plan,List.mem_singleton_self plan,value,?_⟩)
          rcases same with same | same
          · exact .inl (same ▸ mine)
          · exact .inr (same ▸ mine)
      · exact .inr (.inr added)

theorem applyHttpMutation (done : Policy.applyHttpMutation headers body head bodyPlan maximum = .ok (edited,output)) :
    Rewrites [head] headers edited := by
  unfold Policy.applyHttpMutation at done
  cases mutated : Policy.applyHeadMutation headers head with
  | error =>
      rw [mutated] at done
      cases done
  | ok changed =>
      rw [mutated] at done
      cases replaced : applyBodyMutation body bodyPlan maximum with
      | error =>
          rw [replaced] at done
          cases done
      | ok =>
          rw [replaced] at done
          have head := applyHeadMutation mutated
          cases bodyPlan with
          | keep =>
              cases done
              exact head.trans (setContentLength changed _)
          | replace _ =>
              cases done
              exact head.trans ((normalizeReplacedBodyHeaders changed).trans (setContentLength _ _))

end Rewrites

theorem setContentLength_length (headers : HeaderMap) (count : Nat) :
    (setContentLength headers count).getAll "content-length" = [utf8 (toString count)] :=
  HeaderMap.getAll_insert_self _ _ _

end Freja.Policy
