import Freja.Policy.Hook

namespace Freja.Policy.HookRunner

def withRequestBody (runner : HookRunner) (hooks : List (Hook BodyMutationPlan)) : HookRunner :=
  ⟨runner.mode,{runner.registry with requestBody := hooks},runner.failurePolicy⟩

def withResponseBody (runner : HookRunner) (hooks : List (Hook BodyMutationPlan)) : HookRunner :=
  ⟨runner.mode,{runner.registry with responseBody := hooks},runner.failurePolicy⟩

def withTcpClient (runner : HookRunner) (hooks : List (Hook ChunkMutationPlan)) : HookRunner :=
  ⟨runner.mode,{runner.registry with tcpClient := hooks},runner.failurePolicy⟩

def withTcpUpstream (runner : HookRunner) (hooks : List (Hook ChunkMutationPlan)) : HookRunner :=
  ⟨runner.mode,{runner.registry with tcpUpstream := hooks},runner.failurePolicy⟩

end Freja.Policy.HookRunner

namespace Freja.Policy.Keeping
open Domain Policy

variable {α : Type}

-- What the hooks of a stage answer when each is called once, in order.
def answers (input : List UInt8) (calls : Nat) : List (Hook α) → List (Except HookRunError α)
  | [] => []
  | hook :: rest => hook calls input :: answers input (calls + 1) rest

def plans (answered : List (Except HookRunError α)) : List α := answered.filterMap Except.toOption

def firstFailure (answered : List (Except HookRunError α)) : Option HookRunError :=
  answered.findSome? fun
    | .ok _ => none
    | .error error => some error

variable (keep : α) (before : List (Except HookRunError α)) (input : List UInt8)
  (after : List (Except HookRunError α)) (calls : Nat)

theorem answers_append (before after : List (Hook α)) :
    answers input calls (before ++ after) =
      answers input calls before ++ answers input (calls + before.length) after := by
  induction before generalizing calls with
  | nil => rfl
  | cons hook rest ih =>
      simp only [List.cons_append,answers,ih,List.length_cons,List.cons.injEq,true_and]
      rw [Nat.add_assoc,Nat.add_comm 1]

-- A hook that is called once more often before it answers as it did.
def later (hook : Hook α) : Hook α := fun calls => hook (calls - 1)

theorem answers_later (hooks : List (Hook α)) :
    answers input (calls + 1) (hooks.map later) = answers input calls hooks := by
  induction hooks generalizing calls with
  | nil => rfl
  | cons hook rest ih =>
      simp only [List.map_cons,answers,ih]
      rfl

-- What a stage makes of the answers: the first failure where failures count, else the
-- last plan.
def settled (policy : HookFailurePolicy) (keep : α) (answered : List (Except HookRunError α)) :
    Except HookRunError α :=
  match if policy = .failOpen then none else firstFailure answered with
  | some error => .error error
  | none => .ok ((plans answered).getLast?.getD keep)

theorem settled_ok (policy : HookFailurePolicy) (mutation plan : α) (rest : List (Except HookRunError α)) :
    settled policy mutation (.ok plan :: rest) = settled policy plan rest := by
  unfold settled
  have plain : plans (.ok plan :: rest) = plan :: plans rest := rfl
  rw [plain,List.getLast?_cons,Option.getD_some]
  rfl

theorem settled_error (error : HookRunError) (rest : List (Except HookRunError α)) :
    settled .failOpen keep (.error error :: rest) = settled .failOpen keep rest ∧
      settled .failClosed keep (.error error :: rest) = .error error := ⟨rfl,rfl⟩

theorem combine_settled (runner : HookRunner) (input : List UInt8) (mutation : α) (calls : Nat)
    (hooks : List (Hook α)) :
    (runner.combine input mutation calls hooks).1 = settled runner.failurePolicy mutation (answers input calls hooks) := by
  induction hooks generalizing mutation calls with
  | nil => cases policy : runner.failurePolicy <;> rfl
  | cons hook rest ih =>
      unfold HookRunner.combine HookRunner.invoke
      rw [answers]
      cases hook calls input with
      | ok plan =>
          rw [settled_ok]
          exact ih plan (calls + 1)
      | error error =>
          cases policy : runner.failurePolicy with
          | failOpen =>
              have later := ih mutation (calls + 1)
              rw [policy] at later
              rw [(settled_error mutation error _).1]
              exact later
          | failClosed => rfl

theorem firstFailure_some {answered : List (Except HookRunError α)} :
    (firstFailure answered).isSome ↔ ∃ error, .error error ∈ answered := by
  unfold firstFailure
  rw [List.findSome?_isSome_iff]
  constructor
  · rintro ⟨answer,member,found⟩
    cases answer with
    | ok => cases found
    | error error => exact ⟨error,member⟩
  · rintro ⟨error,member⟩
    exact ⟨.error error,member,rfl⟩

theorem plans_nil {answered : List (Except HookRunError α)} :
    plans answered = [] ↔ ∀ answer ∈ answered, ∃ error, answer = .error error := by
  unfold plans
  rw [List.filterMap_eq_nil_iff]
  constructor
  · intro none answer member
    have failed := none answer member
    cases answer with
    | ok => cases failed
    | error error => exact ⟨error,rfl⟩
  · intro failed answer member
    obtain ⟨error,rfl⟩ := failed answer member
    rfl

-- The plan that the stage ends with comes from before a place in the list: after its
-- hook, also beyond the place, every other hook fails.
def LastPlanBefore (before after : List (Except HookRunError α)) (plan : α) : Prop :=
  ∃ earlier failed, before = earlier ++ .ok plan :: failed ∧
    ∀ answer ∈ failed ++ after, ∃ error, answer = .error error

theorem lastPlanBefore_plans {before after : List (Except HookRunError α)} {plan : α} :
    LastPlanBefore before after plan ↔ (plans before).getLast? = some plan ∧ plans after = [] := by
  have append : ∀ first second : List (Except HookRunError α), plans (first ++ second) = plans first ++ plans second :=
    fun first second => List.filterMap_append
  constructor
  · rintro ⟨earlier,failed,rfl,fails⟩
    have none := plans_nil.mpr fails
    rw [append,List.append_eq_nil_iff] at none
    have last : plans (earlier ++ .ok plan :: failed) = plans earlier ++ [plan] := by
      rw [append]
      change plans earlier ++ plan :: plans failed = _
      rw [none.1]
    rw [last,List.getLast?_concat]
    exact ⟨rfl,none.2⟩
  · rintro ⟨last,none⟩
    induction before with
    | nil => cases last
    | cons answer rest ih =>
        by_cases empty : plans rest = []
        · -- No later hook of the list answers with a plan, so this one does.
          cases answer with
          | error error =>
              have same : plans (.error error :: rest) = plans rest := rfl
              rw [same,empty] at last
              cases last
          | ok first =>
              have same : plans (.ok first :: rest) = first :: plans rest := rfl
              rw [same,empty] at last
              cases last
              refine ⟨[],rest,rfl,?_⟩
              rw [← plans_nil,append,empty,none]
              rfl
        · have inside : (plans rest).getLast? = some plan := by
            obtain ⟨first,others,cut⟩ := List.exists_cons_of_ne_nil empty
            have split : plans (answer :: rest) = plans [answer] ++ plans rest := append [answer] rest
            rw [split,List.getLast?_append_of_ne_nil _ empty] at last
            exact last
          obtain ⟨earlier,failed,same,fails⟩ := ih inside
          exact ⟨answer :: earlier,failed,by rw [same]; rfl,fails⟩

def keeping (keep : α) : Hook α := fun _ _ => .ok keep

-- The answers to one call of each hook make no difference to a hook that keeps: a
-- failure ends the stage anyway, or the plan that counts comes from a later hook or
-- keeps as well.
def Unaffected (runner : HookRunner) (keep : α) (before after : List (Except HookRunError α)) : Prop :=
  runner.mode = .disabled ∨
    (runner.failurePolicy = .failClosed ∧ ∃ error, .error error ∈ before ++ after) ∨
    ∀ plan, LastPlanBefore before after plan → plan = keep

theorem firstFailure_keeping :
    firstFailure (before ++ .ok keep :: after) = firstFailure (before ++ after) := by
  unfold firstFailure
  rw [List.findSome?_append,List.findSome?_append]
  rfl

theorem plans_keeping :
    (plans (before ++ .ok keep :: after)).getLast?.getD keep = (plans (before ++ after)).getLast?.getD keep ↔
      ∀ plan, LastPlanBefore before after plan → plan = keep := by
  have with_keep : plans (before ++ .ok keep :: after) = plans before ++ keep :: plans after := List.filterMap_append
  have without : plans (before ++ after) = plans before ++ plans after := List.filterMap_append
  rw [with_keep,without]
  simp only [lastPlanBefore_plans]
  cases later : plans after with
  | cons =>
      rw [List.getLast?_append_of_ne_nil _ (List.cons_ne_nil _ _),
        List.getLast?_append_of_ne_nil _ (List.cons_ne_nil _ _),List.getLast?_cons_cons]
      simp
  | nil =>
      rw [List.getLast?_concat,List.append_nil]
      cases (plans before).getLast? with
      | none => simp
      | some plan =>
          simp only [Option.getD_some,Option.some.injEq,and_true]
          constructor
          · rintro same other rfl
            exact same.symm
          · intro kept
            exact (kept plan rfl).symm

theorem settled_keeping (policy : HookFailurePolicy) (keep : α) (before after : List (Except HookRunError α)) :
    settled policy keep (before ++ .ok keep :: after) = settled policy keep (before ++ after) ↔
      (policy = .failClosed ∧ ∃ error, .error error ∈ before ++ after) ∨
        ∀ plan, LastPlanBefore before after plan → plan = keep := by
  unfold settled
  rw [firstFailure_keeping,← plans_keeping,← firstFailure_some]
  cases policy with
  | failOpen => simp
  | failClosed =>
      cases firstFailure (before ++ after) with
      | none | some => simp

-- Inserting a hook that keeps into the hooks of a stage, whatever the rest of the registry.
theorem run_keeping (runner : HookRunner) (one other : HookRegistry) (keep : α) (before after : List (Hook α))
    (input : List UInt8) (calls : Nat) :
    (HookRunner.run ⟨runner.mode,one,runner.failurePolicy⟩ (before ++ keeping keep :: after.map later)
        keep input calls).1 =
      (HookRunner.run ⟨runner.mode,other,runner.failurePolicy⟩ (before ++ after) keep input calls).1 ↔
    Unaffected runner keep (answers input calls before) (answers input (calls + before.length) after) := by
  unfold HookRunner.run Unaffected
  by_cases disabled : runner.mode = .disabled
  · rw [if_pos disabled,if_pos disabled]
    exact ⟨fun _ => .inl disabled,fun _ => rfl⟩
  · have inserted : answers input calls (before ++ keeping keep :: after.map later) =
        answers input calls before ++ .ok keep :: answers input (calls + before.length) after := by
      rw [answers_append,answers,answers_later]
      rfl
    rw [if_neg disabled,if_neg disabled,combine_settled,combine_settled,inserted,
      answers_append,settled_keeping]
    constructor
    · exact .inr
    · rintro (off | rest)
      · exact absurd off disabled
      · exact rest

-- Where a hook that keeps leaves the plan of a stage as it is, stage by stage.
theorem keeping_hook_unaffected (runner : HookRunner) (input : List UInt8) (calls : Nat) :
    (∀ before after : List (Hook BodyMutationPlan),
      ((((runner.withRequestBody (before ++ keeping .keep :: after.map later)).requestBody input calls).1 =
          ((runner.withRequestBody (before ++ after)).requestBody input calls).1 ↔
        Unaffected runner .keep (answers input calls before) (answers input (calls + before.length) after)) ∧
      (((runner.withResponseBody (before ++ keeping .keep :: after.map later)).responseBody input calls).1 =
          ((runner.withResponseBody (before ++ after)).responseBody input calls).1 ↔
        Unaffected runner .keep (answers input calls before) (answers input (calls + before.length) after)))) ∧
    ∀ before after : List (Hook ChunkMutationPlan),
      ((((runner.withTcpClient (before ++ keeping .keep :: after.map later)).tcpClientChunk input calls).1 =
          ((runner.withTcpClient (before ++ after)).tcpClientChunk input calls).1 ↔
        Unaffected runner .keep (answers input calls before) (answers input (calls + before.length) after)) ∧
      (((runner.withTcpUpstream (before ++ keeping .keep :: after.map later)).tcpUpstreamChunk input calls).1 =
          ((runner.withTcpUpstream (before ++ after)).tcpUpstreamChunk input calls).1 ↔
        Unaffected runner .keep (answers input calls before) (answers input (calls + before.length) after))) := by
  refine ⟨fun before after => ⟨?_,?_⟩,fun before after => ⟨?_,?_⟩⟩
  · exact run_keeping runner {runner.registry with requestBody := _} {runner.registry with requestBody := _}
      BodyMutationPlan.keep before after input calls
  · exact run_keeping runner {runner.registry with responseBody := _} {runner.registry with responseBody := _}
      BodyMutationPlan.keep before after input calls
  · exact run_keeping runner {runner.registry with tcpClient := _} {runner.registry with tcpClient := _}
      ChunkMutationPlan.keep before after input calls
  · exact run_keeping runner {runner.registry with tcpUpstream := _} {runner.registry with tcpUpstream := _}
      ChunkMutationPlan.keep before after input calls

def openRunner : HookRunner := ⟨.automatic,⟨[],[],[],[]⟩,.failOpen⟩

def answering (plan : α) : Hook α := fun _ _ => .ok plan

-- The replacement of the first hook is gone, and so is the dropped chunk.
theorem keeping_hook_undoes :
    (((openRunner.withRequestBody [answering (.replace [97])]).requestBody [98] 0).1,
        ((openRunner.withRequestBody [answering (.replace [97]),keeping .keep]).requestBody [98] 0).1) =
      (.ok (.replace [97]),.ok .keep) ∧
    (((openRunner.withTcpClient [answering .drop]).tcpClientChunk [98] 0).1,
        ((openRunner.withTcpClient [answering .drop,keeping .keep]).tcpClientChunk [98] 0).1) =
      (.ok .drop,.ok .keep) := ⟨rfl,rfl⟩

end Freja.Policy.Keeping
