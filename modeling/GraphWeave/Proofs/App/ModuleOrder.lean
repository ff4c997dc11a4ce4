import GraphWeave.Proofs.Registry.Reordering
import GraphWeave.App
import Mathlib

/-!
The order of registration: each module's code makes registry steps that append and never clash, so
assembling the modules in any order answers the same.
-/

namespace GraphWeave

namespace App

open Registry Modules

theorem modules_eq : modules = [Root.module, User.module, Image.module, Profile.module,
    Counter.module counterSlot, FooBar.module, Animal.module, Node.module, Direction.module,
    Echo.module, Scores.module] := rfl

/-- The steps the code of each of the application's modules makes, in order. -/
def moduleSteps : { stepss : List (List (Step AppState)) //
    List.Forall₂ (fun m steps => Makes m.register steps) modules stepss } :=
  ⟨_, by
    have root : Makes (Root.module : Module AppState).register _ :=
      (Makes.registerObject _).seq (Makes.registerObject _)
    have users : Makes (User.module : Module AppState).register _ :=
      (Makes.registerObject _).seq (Makes.expandField _ _ _)
    have avatars : Makes (Image.module : Module AppState).register _ :=
      (Makes.registerObject _).seq (Makes.expandField _ _ _)
    have profiles : Makes (Profile.module : Module AppState).register _ :=
      (Makes.registerInterface _).seq (Makes.expandImplementField _ _ _ _)
    -- the counter's two mutations are asked for in a loop
    have counter : Makes (Counter.module counterSlot).register _ :=
      (Makes.expandField _ _ _).seq ((Makes.forIn _ _ (fun p => [.expand ⟨"Mutation",
        [Counter.mutationField counterSlot p.1 p.2], [], ⟨"counter", p.1⟩⟩]) (by
          rintro ⟨name, sign⟩ _
          exact ⟨_, rfl, Makes.expandField _ _ _⟩)).seq Makes.done)
    have foobar : Makes (FooBar.module : Module AppState).register _ :=
      (Makes.registerObject _).seq ((Makes.registerObject _).seq ((Makes.registerUnion _).seq
        (Makes.injectFields _ _ _ rfl)))
    have pets : Makes (Animal.module : Module AppState).register _ :=
      (Makes.registerInterface _).seq ((Makes.registerObject _).seq ((Makes.registerObject _).seq
        ((Makes.registerObject _).seq ((Makes.registerUnion _).seq (Makes.expandField _ _ _)))))
    have nodes : Makes (Node.module : Module AppState).register _ :=
      (Makes.registerInterface _).seq ((Makes.registerObject _).seq ((Makes.registerObject _).seq
        (Makes.injectFields _ _ _ rfl)))
    have directions : Makes (Direction.module : Module AppState).register _ :=
      (Makes.registerEnum _).seq (Makes.injectFields _ _ _ rfl)
    have echo : Makes (Echo.module : Module AppState).register _ :=
      (Makes.registerInputObject _).seq ((Makes.registerInputObject _).seq
        (Makes.injectFields _ _ _ rfl))
    have scores : Makes (Scores.module : Module AppState).register _ := Makes.injectFields _ _ _ rfl
    rw [modules_eq]
    exact .cons root (.cons users (.cons avatars (.cons profiles (.cons counter (.cons foobar
      (.cons pets (.cons nodes (.cons directions (.cons echo (.cons scores .nil))))))))))⟩

theorem moduleSteps_distinct : (moduleSteps.1.flatten.filterMap Step.key).Nodup := by
  decide +kernel

theorem modules_make : ∃ stepss : List (List (Step AppState)),
    List.Forall₂ (fun m steps => Makes m.register steps) modules stepss ∧
      (stepss.flatten.filterMap Step.key).Nodup :=
  ⟨moduleSteps.1, moduleSteps.2, moduleSteps_distinct⟩

theorem assemble_eq {ms : List (Module AppState)} {stepss : List (List (Step AppState))}
    (made : List.Forall₂ (fun m steps => Makes m.register steps) ms stepss)
    (distinct : (stepss.flatten.filterMap Step.key).Nodup) :
    ∃ log, assemble ms =
      (exec (finish Root.queryType Root.mutationType "") (registryOf stepss.flatten log)).1 := by
  obtain ⟨log, ran⟩ := Makes.register made [] [] distinct
  refine ⟨log, ?_⟩
  show (exec (Registry.register ms >>= fun _ => finish Root.queryType Root.mutationType "") {}).1 = _
  rw [exec_bind, ← registryOf_nil, ran, andThen_ok, List.nil_append]

theorem assemble_perm (ms : List (Module AppState)) (reordered : ms.Perm modules) :
    Finished.of (assemble ms) = Finished.of (assemble modules) := by
  obtain ⟨stepss, made, distinct⟩ := modules_make
  obtain ⟨stepss', made', reordered'⟩ := List.perm_comp_forall₂ reordered made
  have flat : stepss'.flatten.Perm stepss.flatten := reordered'.flatten
  obtain ⟨log', assembled'⟩ := assemble_eq made' ((flat.filterMap _).nodup_iff.mpr distinct)
  obtain ⟨log, assembled⟩ := assemble_eq made distinct
  calc Finished.of (assemble ms)
      = Finished.of (exec (finish Root.queryType Root.mutationType "")
          (registryOf stepss'.flatten log')).1 := congrArg _ assembled'
    _ = Finished.of (exec (finish Root.queryType Root.mutationType "")
          (registryOf stepss.flatten log)).1 := finished_registryOf_perm _ _ _ flat distinct log log'
    _ = Finished.of (assemble modules) := (congrArg _ assembled).symm

end App

/-- Registration order does not matter. Finishing after a session of steps on a fresh registry,
each registering a definition, no two of one kind and name, or asking for a change that appends
fields to an object and declares interfaces on it, answers the same for the steps in any order:
the same schema text, the same stuck targets, or an error of the same kind. It is stuck exactly
when a change targets a name no object was registered under, and then reports, each once and
sorted, the targets of such changes. Assembling the application's modules in any order answers
the same too. -/
theorem registration_order_independent {σ : Type} {steps steps' : List (Registry.Step σ)}
    (reordered : steps'.Perm steps) (distinct : (steps.filterMap Registry.Step.key).Nodup)
    (query mutation subscription : String) :
    Registry.Finished.of (Registry.finishAfter query mutation subscription steps') =
        Registry.Finished.of (Registry.finishAfter query mutation subscription steps) ∧
      ((∃ injections, Registry.finishAfter query mutation subscription steps =
          .error (.stuck injections)) ↔
        ∃ a ∈ steps.flatMap Registry.Step.queued,
          (TypeKind.object, a.target) ∉ steps.filterMap Registry.Step.key) ∧
      (∀ injections, Registry.finishAfter query mutation subscription steps =
          .error (.stuck injections) →
        (RegistryError.stuckTargets injections).Nodup ∧
          (RegistryError.stuckTargets injections).Pairwise (· ≤ ·) ∧
          ∀ t, t ∈ RegistryError.stuckTargets injections ↔
            (∃ a ∈ steps.flatMap Registry.Step.queued, a.target = t) ∧
              (TypeKind.object, t) ∉ steps.filterMap Registry.Step.key) ∧
      ∀ ms : List (Module AppState), ms.Perm App.modules →
        Registry.Finished.of (App.assemble ms) = Registry.Finished.of (App.assemble App.modules) := by
  obtain ⟨log, ran⟩ := Registry.finishAfter_eq query mutation subscription steps distinct
  obtain ⟨stuck, reported⟩ :=
    Registry.finish_registryOf_stuck query mutation subscription steps log distinct
  refine ⟨Registry.finishAfter_perm _ _ _ reordered distinct, ?_, ?_, App.assemble_perm⟩
  · rw [ran]
    exact stuck
  · rw [ran]
    exact reported

/-- A field injected into a name no object has, after and before registering the query object:
the steps meet the conditions in both orders. -/
theorem ghost_injection_order_independent :
    let query : ObjectDef Unit := { name := "Query", fields := [{ name := "a", type := .named "String" }] }
    let ghost : FieldDef Unit := { name := "b", type := .named "String" }
    let steps : List (Registry.Step Unit) := [.register (.object query), .inject "Ghost" "m" [ghost]]
    steps.reverse.Perm steps ∧ (steps.filterMap Registry.Step.key).Nodup ∧
      (Registry.Finished.of (Registry.finishAfter "Query" "" "" steps.reverse) =
          Registry.Finished.of (Registry.finishAfter "Query" "" "" steps) ∧
        ((∃ injections, Registry.finishAfter "Query" "" "" steps = .error (.stuck injections)) ↔
          ∃ a ∈ steps.flatMap Registry.Step.queued,
            (TypeKind.object, a.target) ∉ steps.filterMap Registry.Step.key) ∧
        (∀ injections, Registry.finishAfter "Query" "" "" steps = .error (.stuck injections) →
          (RegistryError.stuckTargets injections).Nodup ∧
            (RegistryError.stuckTargets injections).Pairwise (· ≤ ·) ∧
            ∀ t, t ∈ RegistryError.stuckTargets injections ↔
              (∃ a ∈ steps.flatMap Registry.Step.queued, a.target = t) ∧
                (TypeKind.object, t) ∉ steps.filterMap Registry.Step.key) ∧
        ∀ ms : List (Module AppState), ms.Perm App.modules →
          Registry.Finished.of (App.assemble ms) = Registry.Finished.of (App.assemble App.modules)) := by
  intro query ghost steps
  have distinct : (steps.filterMap Registry.Step.key).Nodup := by decide
  exact ⟨List.reverse_perm steps, distinct,
    registration_order_independent (List.reverse_perm steps) distinct "Query" "" ""⟩

end GraphWeave
