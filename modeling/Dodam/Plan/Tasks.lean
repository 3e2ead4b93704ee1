import Mathlib.Data.Multiset.Bind

/-! # Stages and tasks of a physical plan

A physical plan is split into stages at its exchanges, and each stage into tasks that read scan
fragments or shuffle partitions.
-/
namespace Dodam.Plan

inductive Partitioning
  | unknown
  | single
  | hash (keys : List String) (partitions : ℕ)
  | roundRobin (partitions : ℕ)
  | fileRange (partitions : ℕ)
deriving DecidableEq

inductive ExchangeKind
  | hashRepartition (keys : List String) (partitions : ℕ)
  | broadcast
  | gather
deriving DecidableEq

inductive PhysicalOperator
  | exchange (kind : ExchangeKind)
  | named (name : String)
deriving DecidableEq

/-- A node with the fragments of its scan, where it has one. -/
inductive PhysicalPlanNode (φ : Type*)
  | operator (operator : PhysicalOperator) (attributes : List (String × String)) (partitioning : Partitioning)
      (fragments : Option (List φ)) (children : List (PhysicalPlanNode φ))

structure StagePlan (φ : Type*) where
  id : ℕ
  root : PhysicalPlanNode φ
  inputStages : List ℕ
  partitioning : Partitioning

inductive TaskInput (φ : Type*)
  | scanFragment (fragment : φ)
  | shufflePartition (stageId : ℕ) (partition : ℕ)

structure TaskPlan (φ : Type*) where
  stageId : ℕ
  partition : ℕ
  root : PhysicalPlanNode φ
  inputs : List (TaskInput φ)

variable {φ : Type*}

def PhysicalPlanNode.partitioningRef : PhysicalPlanNode φ → Partitioning
  | .operator _ _ partitioning _ _ => partitioning

def exchangePartitioning : ExchangeKind → Partitioning
  | .hashRepartition keys partitions => .hash keys partitions
  | .broadcast => .unknown
  | .gather => .single

def partitionCount : Partitioning → ℕ
  | .unknown => 1
  | .single => 1
  | .hash _ partitions => partitions
  | .roundRobin partitions => partitions
  | .fileRange partitions => partitions

mutual

def collectScanFragments (output : List φ) : PhysicalPlanNode φ → List φ
  | .operator _ _ _ fragments children => collectChildFragments (output ++ fragments.getD []) children

def collectChildFragments (output : List φ) : List (PhysicalPlanNode φ) → List φ
  | [] => output
  | child :: children => collectChildFragments (collectScanFragments output child) children

end

def scanFragments (node : PhysicalPlanNode φ) : List φ := collectScanFragments [] node

def extendUnique (target source : List ℕ) : List ℕ :=
  source.foldl (fun target stage => if stage ∈ target then target else target ++ [stage]) target

structure StagePlanner (φ : Type*) where
  nextStageId : ℕ
  stages : List (StagePlan φ)

namespace StagePlanner

def pushStageWithPartitioning (planner : StagePlanner φ) (root : PhysicalPlanNode φ) (inputStages : List ℕ)
    (partitioning : Partitioning) : StagePlanner φ × ℕ :=
  (⟨planner.nextStageId + 1,planner.stages ++ [⟨planner.nextStageId,root,inputStages,partitioning⟩]⟩,planner.nextStageId)

def pushStage (planner : StagePlanner φ) (root : PhysicalPlanNode φ) (inputStages : List ℕ) : StagePlanner φ × ℕ :=
  planner.pushStageWithPartitioning root inputStages root.partitioningRef

mutual

/-- The plan above its exchanges, with the stages that they start; an exchange keeps only its first child. -/
def rewriteExchangeInputs (planner : StagePlanner φ) : PhysicalPlanNode φ → StagePlanner φ × PhysicalPlanNode φ × List ℕ
  | .operator (.exchange kind) attributes partitioning fragments children =>
    match children with
    | [] => (planner,.operator (.exchange kind) attributes partitioning fragments [],[])
    | input :: _ =>
      let rewritten := rewriteExchangeInputs planner input
      let pushed := rewritten.1.pushStageWithPartitioning rewritten.2.1 rewritten.2.2 (exchangePartitioning kind)
      (pushed.1,.operator (.exchange kind) (attributes ++ [("input_stage",toString pushed.2)]) (exchangePartitioning kind) fragments [],
        [pushed.2])
  | .operator (.named name) attributes partitioning fragments children =>
    let rewritten := rewriteChildren planner [] children
    (rewritten.1,.operator (.named name) attributes partitioning fragments rewritten.2.1,rewritten.2.2)

def rewriteChildren (planner : StagePlanner φ) (inputStages : List ℕ) :
    List (PhysicalPlanNode φ) → StagePlanner φ × List (PhysicalPlanNode φ) × List ℕ
  | [] => (planner,[],inputStages)
  | child :: children =>
    let rewritten := rewriteExchangeInputs planner child
    let rest := rewriteChildren rewritten.1 (extendUnique inputStages rewritten.2.2) children
    (rest.1,rewritten.2.1 :: rest.2.1,rest.2.2)

end

def split (root : PhysicalPlanNode φ) : List (StagePlan φ) :=
  let rewritten := rewriteExchangeInputs ⟨0,[]⟩ root
  (rewritten.1.pushStage rewritten.2.1 rewritten.2.2).1.stages

end StagePlanner

namespace TaskPlanner

def inputPartitions (stages : List (StagePlan φ)) (inputStage : ℕ) : ℕ :=
  ((stages.find? fun stage => stage.id = inputStage).map fun stage => max (partitionCount stage.partitioning) 1).getD 1

/-- The shuffle inputs of one of the `partitions` tasks of a stage. -/
def shuffleTaskInputs (stages : List (StagePlan φ)) (inputStages : List ℕ) (partitions partition : ℕ) : List (TaskInput φ) :=
  inputStages.flatMap fun inputStage =>
    if partitions = 1 then
      (List.range (inputPartitions stages inputStage)).map fun inputPartition => .shufflePartition inputStage inputPartition
    else [.shufflePartition inputStage (min partition (inputPartitions stages inputStage - 1))]

def stageTasks (stages : List (StagePlan φ)) (stage : StagePlan φ) : List (TaskPlan φ) :=
  if !(scanFragments stage.root).isEmpty && stage.inputStages.isEmpty then
    if stage.partitioning = .single then [⟨stage.id,0,stage.root,(scanFragments stage.root).map .scanFragment⟩]
    else (scanFragments stage.root).zipIdx.map fun e => ⟨stage.id,e.2,stage.root,[.scanFragment e.1]⟩
  else
    (List.range (max (partitionCount stage.partitioning) 1)).map fun partition =>
      ⟨stage.id,partition,stage.root,
        shuffleTaskInputs stages stage.inputStages (max (partitionCount stage.partitioning) 1) partition⟩

def plan (stages : List (StagePlan φ)) : List (TaskPlan φ) := stages.flatMap (stageTasks stages)

end TaskPlanner

open TaskPlanner

def TaskInput.asFragment : TaskInput φ → Option φ
  | .scanFragment fragment => some fragment
  | .shufflePartition _ _ => none

def TaskInput.asShuffle : TaskInput φ → Option (ℕ × ℕ)
  | .scanFragment _ => none
  | .shufflePartition stageId partition => some (stageId,partition)

namespace TaskPlan

def fragments (task : TaskPlan φ) : List φ := task.inputs.filterMap TaskInput.asFragment

def shuffleInputs (task : TaskPlan φ) : List (ℕ × ℕ) := task.inputs.filterMap TaskInput.asShuffle

/-- The fragments that running the task scans: a task that lists none keeps the scans of its root. -/
def scanned (task : TaskPlan φ) : List φ := if task.fragments.isEmpty then scanFragments task.root else task.fragments

end TaskPlan

open TaskPlan

/-- The tasks of a stage list each of its fragments and each partition of its inputs once. -/
def CoversOnce (stages : List (StagePlan φ)) (stage : StagePlan φ) : Prop :=
  (((plan stages).filter (·.stageId = stage.id)).flatMap fragments).Perm (scanFragments stage.root) ∧
    (((plan stages).filter (·.stageId = stage.id)).flatMap shuffleInputs).Perm
      (stage.inputStages.flatMap fun inputStage => (List.range (inputPartitions stages inputStage)).map (inputStage,·))

def ScansOnce (stages : List (StagePlan φ)) (stage : StagePlan φ) : Prop :=
  (((plan stages).filter (·.stageId = stage.id)).flatMap scanned).Perm (scanFragments stage.root)

/-- The number of tasks of a stage that is no mere scan. -/
def StagePlan.partitions (stage : StagePlan φ) : ℕ := max (partitionCount stage.partitioning) 1

/-- The stage does not mix scans with inputs, and it has one partition or as many as each of its inputs. -/
def MatchesInputs (stages : List (StagePlan φ)) (stage : StagePlan φ) : Prop :=
  (scanFragments stage.root = [] ∨ stage.inputStages = []) ∧
    (stage.partitions = 1 ∨ ∀ inputStage ∈ stage.inputStages, inputPartitions stages inputStage = stage.partitions)

/-- A graph whose stages stand at their ids and read earlier stages, each once. -/
structure Ordered (stages : List (StagePlan φ)) : Prop where
  id_eq : ∀ {i : ℕ} {stage : StagePlan φ}, stages[i]? = some stage → stage.id = i
  nodup : ∀ stage ∈ stages, stage.inputStages.Nodup
  earlier : ∀ stage ∈ stages, ∀ inputStage ∈ stage.inputStages, inputStage < stage.id

section Split

theorem mem_extendUnique {target source : List ℕ} {stage : ℕ} : stage ∈ extendUnique target source ↔ stage ∈ target ∨ stage ∈ source := by
  unfold extendUnique
  induction source generalizing target with
  | nil => simp
  | cons s source ih =>
    rw [List.foldl_cons,ih]
    split_ifs with hs
    · constructor
      · exact Or.imp_right (List.mem_cons_of_mem s)
      · rintro (h | h)
        · exact .inl h
        · obtain rfl | h := List.mem_cons.mp h
          · exact .inl hs
          · exact .inr h
    · simp [or_assoc]

theorem nodup_extendUnique {target : List ℕ} (h : target.Nodup) (source : List ℕ) : (extendUnique target source).Nodup := by
  unfold extendUnique
  induction source generalizing target with
  | nil => exact h
  | cons s source ih =>
    rw [List.foldl_cons]
    apply ih
    split_ifs with hs
    · exact h
    · exact h.append (List.nodup_singleton s) (by simpa using hs)

/-- A planner whose stages are in order and whose next id is their number. -/
def StagePlanner.Good (planner : StagePlanner φ) : Prop := Ordered planner.stages ∧ planner.nextStageId = planner.stages.length

/-- The input stages of a rewritten plan: distinct, and among the stages already pushed. -/
def StagePlanner.Known (planner : StagePlanner φ) (inputStages : List ℕ) : Prop :=
  inputStages.Nodup ∧ ∀ inputStage ∈ inputStages, inputStage < planner.nextStageId

namespace StagePlanner

theorem good_push {planner : StagePlanner φ} {inputStages : List ℕ} (h : planner.Good) (hinputs : planner.Known inputStages)
    (root : PhysicalPlanNode φ) (partitioning : Partitioning) : (planner.pushStageWithPartitioning root inputStages partitioning).1.Good := by
  obtain ⟨hordered,hnext⟩ := h
  refine ⟨⟨?_,?_,?_⟩,?_⟩
  · intro i stage hget
    rw [pushStageWithPartitioning,List.getElem?_append] at hget
    split_ifs at hget with hi
    · exact hordered.id_eq hget
    · obtain ⟨hzero,hstage⟩ := List.getElem?_eq_some_iff.mp hget
      rw [List.length_singleton] at hzero
      have hlast : i - planner.stages.length = 0 := by omega
      simp only [hlast,List.getElem_cons_zero] at hstage
      rw [← hstage]
      exact hnext.trans (by omega)
  · intro stage hstage
    obtain hstage | rfl := by simpa [pushStageWithPartitioning] using hstage
    · exact hordered.nodup stage hstage
    · exact hinputs.1
  · intro stage hstage
    obtain hstage | rfl := by simpa [pushStageWithPartitioning] using hstage
    · exact hordered.earlier stage hstage
    · exact hinputs.2
  · simp [pushStageWithPartitioning,hnext]

mutual

theorem good_rewriteExchangeInputs {planner : StagePlanner φ} (h : planner.Good) : (node : PhysicalPlanNode φ) →
    (planner.rewriteExchangeInputs node).1.Good ∧ planner.nextStageId ≤ (planner.rewriteExchangeInputs node).1.nextStageId ∧
      (planner.rewriteExchangeInputs node).1.Known (planner.rewriteExchangeInputs node).2.2
  | .operator (.exchange kind) attributes partitioning fragments children => by
    cases children with
    | nil => exact ⟨h,le_rfl,List.nodup_nil,by simp [rewriteExchangeInputs]⟩
    | cons input rest =>
      obtain ⟨hgood,hle,hknown⟩ := good_rewriteExchangeInputs h input
      refine ⟨good_push hgood hknown _ _,hle.trans (Nat.le_succ _),List.nodup_singleton _,fun inputStage hmem => ?_⟩
      rw [List.mem_singleton.mp hmem]
      exact Nat.lt_succ_self _
  | .operator (.named name) attributes partitioning fragments children => by
    exact good_rewriteChildren h ⟨List.nodup_nil,by simp⟩ children

theorem good_rewriteChildren {planner : StagePlanner φ} (h : planner.Good) {inputStages : List ℕ} (hinputs : planner.Known inputStages) :
    (children : List (PhysicalPlanNode φ)) →
    (planner.rewriteChildren inputStages children).1.Good ∧
      planner.nextStageId ≤ (planner.rewriteChildren inputStages children).1.nextStageId ∧
      (planner.rewriteChildren inputStages children).1.Known (planner.rewriteChildren inputStages children).2.2
  | [] => ⟨h,le_rfl,hinputs⟩
  | child :: children => by
    obtain ⟨hgood,hle,hknown⟩ := good_rewriteExchangeInputs h child
    have hextended : (planner.rewriteExchangeInputs child).1.Known (extendUnique inputStages (planner.rewriteExchangeInputs child).2.2) := by
      refine ⟨nodup_extendUnique hinputs.1 _,fun inputStage hmem => ?_⟩
      obtain hmem | hmem := mem_extendUnique.mp hmem
      · exact (hinputs.2 inputStage hmem).trans_le hle
      · exact hknown.2 inputStage hmem
    obtain ⟨hgood',hle',hknown'⟩ := good_rewriteChildren hgood hextended children
    exact ⟨hgood',hle.trans hle',hknown'⟩

end

theorem ordered_split (root : PhysicalPlanNode φ) : Ordered (split root) := by
  have hempty : (⟨0,[]⟩ : StagePlanner φ).Good := ⟨⟨by simp,by simp,by simp⟩,rfl⟩
  obtain ⟨hgood,_,hknown⟩ := good_rewriteExchangeInputs hempty root
  exact (good_push hgood hknown _ _).1

end StagePlanner
end Split

section Blocks
variable {inputStages : List ℕ} {counts : ℕ → ℕ}

theorem countP_blocks (hnodup : inputStages.Nodup) {inputStage : ℕ} (hmem : inputStage ∈ inputStages) (block : ℕ → List ℕ) :
    (inputStages.flatMap fun s => (block s).map (s,·)).countP (·.1 = inputStage) = (block inputStage).length := by
  induction inputStages with
  | nil => cases hmem
  | cons s inputStages ih =>
    obtain ⟨hs,hnodup⟩ := List.nodup_cons.mp hnodup
    rw [List.flatMap_cons,List.countP_append,List.countP_map]
    obtain rfl | hmem := List.mem_cons.mp hmem
    · have hrest : (inputStages.flatMap fun s => (block s).map (s,·)).countP (·.1 = inputStage) = 0 := by
        rw [List.countP_eq_zero]
        rintro ⟨s,partition⟩ hentry
        obtain ⟨s',hs',hpair⟩ := List.mem_flatMap.mp hentry
        obtain ⟨_,_,hpair⟩ := List.mem_map.mp hpair
        cases hpair
        exact fun heq => hs (of_decide_eq_true heq ▸ hs')
      rw [hrest,Nat.add_zero,List.countP_eq_length]
      exact fun _ _ => decide_eq_true rfl
    · have hne : s ≠ inputStage := fun heq => hs (heq ▸ hmem)
      rw [ih hnodup hmem,List.countP_eq_zero.mpr fun _ _ => by simpa using hne,Nat.zero_add]

/-- Several tasks that each read one partition of every input cover the partitions once exactly when the counts agree. -/
theorem perm_blocks_iff (hnodup : inputStages.Nodup) {partitions : ℕ} :
    ((List.range partitions).flatMap fun partition => inputStages.flatMap fun s => [(s,min partition (counts s - 1))]).Perm
        (inputStages.flatMap fun s => (List.range (counts s)).map (s,·)) ↔
      ∀ s ∈ inputStages, counts s = partitions := by
  constructor
  · intro hperm s hs
    have hcount := hperm.countP_eq (·.1 = s)
    rw [countP_blocks hnodup hs fun s => List.range (counts s),List.length_range,List.countP_flatMap] at hcount
    have hone (partition : ℕ) :
        (inputStages.flatMap fun s => [(s,min partition (counts s - 1))]).countP (·.1 = s) = 1 :=
      countP_blocks hnodup hs fun s => [min partition (counts s - 1)]
    rw [← hcount]
    simp [Function.comp_def,hone]
  · intro hcounts
    have hleft : ((List.range partitions).flatMap fun partition => inputStages.flatMap fun s => [(s,min partition (counts s - 1))]) =
        (List.range partitions).flatMap fun partition => inputStages.flatMap fun s => [(s,partition)] := by
      apply List.flatMap_congr
      intro partition hpartition
      apply List.flatMap_congr
      intro s hs
      have hlt := List.mem_range.mp hpartition
      rw [hcounts s hs,min_eq_left (by omega)]
    have hright : (inputStages.flatMap fun s => (List.range (counts s)).map (s,·)) =
        inputStages.flatMap fun s => (List.range partitions).flatMap fun partition => [(s,partition)] := by
      apply List.flatMap_congr
      intro s hs
      rw [hcounts s hs]
      exact List.flatMap_pure_eq_map .. |>.symm
    rw [hleft,hright,← Multiset.coe_eq_coe]
    simp only [← Multiset.coe_bind]
    exact Multiset.bind_bind ..

end Blocks

section Tasks
variable {stages : List (StagePlan φ)} {stage : StagePlan φ}

theorem stageId_of_mem {task : TaskPlan φ} (h : task ∈ stageTasks stages stage) : task.stageId = stage.id := by
  unfold stageTasks at h
  split_ifs at h
  · rw [List.mem_singleton.mp h]
  · obtain ⟨_,_,rfl⟩ := List.mem_map.mp h
    rfl
  · obtain ⟨_,_,rfl⟩ := List.mem_map.mp h
    rfl

theorem Ordered.nodup_ids (h : Ordered stages) : (stages.map StagePlan.id).Nodup := by
  have hids : stages.map StagePlan.id = List.range stages.length := by
    apply List.ext_getElem (by simp)
    intro i hi hi'
    rw [List.getElem_map,List.getElem_range]
    exact h.id_eq (List.getElem?_eq_getElem (by simpa using hi))
  rw [hids]
  exact List.nodup_range

theorem filter_plan (h : Ordered stages) (hmem : stage ∈ stages) :
    (plan stages).filter (·.stageId = stage.id) = stageTasks stages stage := by
  have htasks (graph : List (StagePlan φ)) (hnodup : (graph.map StagePlan.id).Nodup) (hmem : stage ∈ graph) :
      (graph.flatMap (stageTasks stages)).filter (·.stageId = stage.id) = stageTasks stages stage := by
    have hother (s : StagePlan φ) (hne : s.id ≠ stage.id) : (stageTasks stages s).filter (·.stageId = stage.id) = [] :=
      List.filter_eq_nil_iff.mpr fun task htask => by simpa [stageId_of_mem htask] using hne
    induction graph with
    | nil => cases hmem
    | cons s graph ih =>
      obtain ⟨hs,hnodup⟩ := List.nodup_cons.mp hnodup
      rw [List.flatMap_cons,List.filter_append]
      obtain rfl | hmem := List.mem_cons.mp hmem
      · have hrest : (graph.flatMap (stageTasks stages)).filter (·.stageId = stage.id) = [] := by
          rw [List.filter_flatMap,List.flatMap_eq_nil_iff]
          exact fun s hs' => hother s fun heq => hs (heq ▸ List.mem_map_of_mem hs')
        rw [hrest,List.append_nil,List.filter_eq_self]
        exact fun task htask => decide_eq_true (stageId_of_mem htask)
      · rw [hother s fun heq => hs (heq ▸ List.mem_map_of_mem hmem),List.nil_append,ih hnodup hmem]
  exact htasks stages h.nodup_ids hmem

theorem fragments_shuffle (stages : List (StagePlan φ)) (inputStages : List ℕ) (partitions partition stageId : ℕ) (root : PhysicalPlanNode φ) :
    fragments ⟨stageId,partition,root,shuffleTaskInputs stages inputStages partitions partition⟩ = [] := by
  rw [fragments,List.filterMap_eq_nil_iff]
  intro input hinput
  obtain ⟨inputStage,_,hinput⟩ := List.mem_flatMap.mp hinput
  split_ifs at hinput
  · obtain ⟨_,_,rfl⟩ := List.mem_map.mp hinput
    rfl
  · rw [List.mem_singleton.mp hinput]
    rfl

theorem shuffleInputs_shuffle (stages : List (StagePlan φ)) (inputStages : List ℕ) (partitions partition stageId : ℕ)
    (root : PhysicalPlanNode φ) :
    shuffleInputs ⟨stageId,partition,root,shuffleTaskInputs stages inputStages partitions partition⟩ =
      inputStages.flatMap fun inputStage =>
        if partitions = 1 then (List.range (inputPartitions stages inputStage)).map (inputStage,·)
        else [(inputStage,min partition (inputPartitions stages inputStage - 1))] := by
  rw [shuffleInputs,shuffleTaskInputs,List.filterMap_flatMap]
  apply List.flatMap_congr
  intro inputStage _
  split_ifs
  · rw [List.filterMap_map]
    exact List.filterMap_eq_map' (f := (inputStage,·)) ▸ rfl
  · rfl

theorem scan_tasks (stages : List (StagePlan φ)) (hscan : scanFragments stage.root ≠ []) (hinputs : stage.inputStages = []) :
    (stageTasks stages stage).flatMap fragments = scanFragments stage.root ∧
      (stageTasks stages stage).flatMap scanned = scanFragments stage.root ∧
      (stageTasks stages stage).flatMap shuffleInputs = [] := by
  have hlisted (fragments : List φ) : (fragments.map TaskInput.scanFragment).filterMap TaskInput.asFragment = fragments := by
    rw [List.filterMap_map]
    exact List.filterMap_some
  have hshuffled (fragments : List φ) : (fragments.map TaskInput.scanFragment).filterMap TaskInput.asShuffle = [] := by
    rw [List.filterMap_map,List.filterMap_eq_nil_iff]
    exact fun _ _ => rfl
  rw [stageTasks,if_pos (by simp [hscan,hinputs])]
  split_ifs
  · simp [fragments,scanned,shuffleInputs,hlisted,hshuffled]
  · -- one task for each fragment
    have hsingle (e : φ × ℕ) : fragments ⟨stage.id,e.2,stage.root,[.scanFragment e.1]⟩ = [e.1] := rfl
    have hsplit : (scanFragments stage.root).zipIdx.flatMap (fun e => [e.1]) = scanFragments stage.root := by
      exact List.flatMap_pure_eq_map .. |>.trans (List.zipIdx_map_fst ..)
    refine ⟨?_,?_,?_⟩
    · simpa only [List.flatMap_map,hsingle] using hsplit
    · have hscanned (e : φ × ℕ) : scanned ⟨stage.id,e.2,stage.root,[.scanFragment e.1]⟩ = [e.1] := rfl
      simpa only [List.flatMap_map,hscanned] using hsplit
    · rw [List.flatMap_map,List.flatMap_eq_nil_iff]
      exact fun _ _ => rfl

theorem StagePlan.shape_cases (stage : StagePlan φ) :
    (scanFragments stage.root ≠ [] ∧ stage.inputStages = []) ∨ (scanFragments stage.root = [] ∨ stage.inputStages ≠ []) := by
  by_cases hempty : scanFragments stage.root = []
  · exact .inr (.inl hempty)
  · by_cases hinputs : stage.inputStages = []
    · exact .inl ⟨hempty,hinputs⟩
    · exact .inr (.inr hinputs)

theorem other_tasks (stages : List (StagePlan φ)) (h : scanFragments stage.root = [] ∨ stage.inputStages ≠ []) :
    (stageTasks stages stage).flatMap fragments = [] ∧
      (stageTasks stages stage).flatMap scanned =
        (List.range stage.partitions).flatMap (fun _ => scanFragments stage.root) ∧
      (stageTasks stages stage).flatMap shuffleInputs =
        (List.range stage.partitions).flatMap fun partition => stage.inputStages.flatMap fun inputStage =>
          if stage.partitions = 1 then (List.range (inputPartitions stages inputStage)).map (inputStage,·)
          else [(inputStage,min partition (inputPartitions stages inputStage - 1))] := by
  have hbranch : ¬(!(scanFragments stage.root).isEmpty && stage.inputStages.isEmpty) = true := by
    rcases h with h | h <;> simp [h]
  rw [stageTasks,if_neg hbranch]
  simp only [List.flatMap_map,scanned,fragments_shuffle,shuffleInputs_shuffle]
  exact ⟨List.flatMap_eq_nil_iff.mpr fun _ _ => rfl,rfl,rfl⟩

theorem perm_repeat_iff {fragments : List φ} {partitions : ℕ} :
    ((List.range partitions).flatMap fun _ => fragments).Perm fragments ↔ fragments = [] ∨ partitions = 1 := by
  constructor
  · intro hperm
    have hlength := hperm.length_eq
    simp only [List.length_flatMap,List.map_const',List.length_range,List.sum_replicate_nat] at hlength
    cases fragments with
    | nil => exact .inl rfl
    | cons fragment fragments => exact .inr (Nat.eq_of_mul_eq_mul_right (Nat.succ_pos _) (hlength.trans (Nat.one_mul _).symm))
  · rintro (rfl | rfl)
    · simp
    · simp

theorem coversOnce_iff (h : Ordered stages) (hmem : stage ∈ stages) : CoversOnce stages stage ↔ MatchesInputs stages stage := by
  rw [CoversOnce,filter_plan h hmem,MatchesInputs]
  obtain hscan | hother := stage.shape_cases
  · obtain ⟨hlisted,_,hshuffled⟩ := scan_tasks stages hscan.1 hscan.2
    rw [hlisted,hshuffled,hscan.2]
    simp
  · obtain ⟨hlisted,_,hshuffled⟩ := other_tasks stages hother
    rw [hlisted,hshuffled]
    have hfragments : [].Perm (scanFragments stage.root) ↔ scanFragments stage.root = [] ∨ stage.inputStages = [] := by
      rw [List.nil_perm]
      exact ⟨.inl,fun hor => hor.elim id fun hinputs => hother.resolve_right fun hne => hne hinputs⟩
    rw [hfragments]
    apply and_congr_right'
    by_cases hone : stage.partitions = 1
    · simp [hone]
    · simp only [if_neg hone]
      rw [perm_blocks_iff (h.nodup stage hmem)]
      exact (or_iff_right hone).symm

theorem scansOnce_iff (h : Ordered stages) (hmem : stage ∈ stages) :
    ScansOnce stages stage ↔ scanFragments stage.root = [] ∨ stage.inputStages = [] ∨ stage.partitions = 1 := by
  rw [ScansOnce,filter_plan h hmem]
  obtain hscan | hother := stage.shape_cases
  · rw [(scan_tasks stages hscan.1 hscan.2).2.1]
    exact iff_of_true (List.Perm.refl _) (.inr (.inl hscan.2))
  · rw [(other_tasks stages hother).2.1,perm_repeat_iff]
    constructor
    · exact Or.imp_right .inr
    · rintro (hempty | hinputs | hone)
      · exact .inl hempty
      · exact .inl (hother.resolve_right fun hne => hne hinputs)
      · exact .inr hone

theorem shuffleInputs_earlier (h : Ordered stages) {task : TaskPlan φ} (htask : task ∈ plan stages) {input : ℕ × ℕ}
    (hinput : input ∈ task.shuffleInputs) : input.1 < task.stageId ∧ input.2 < inputPartitions stages input.1 := by
  have hpos (inputStage : ℕ) : 0 < inputPartitions stages inputStage := by
    unfold inputPartitions
    cases stages.find? fun stage => stage.id = inputStage with
    | none => exact Nat.one_pos
    | some stage => exact Nat.lt_of_lt_of_le Nat.one_pos (le_max_right ..)
  obtain ⟨stage,hstage,htask⟩ := List.mem_flatMap.mp htask
  rw [stageId_of_mem htask]
  have hflat : input ∈ (stageTasks stages stage).flatMap shuffleInputs := List.mem_flatMap.mpr ⟨task,htask,hinput⟩
  obtain hscan | hother := stage.shape_cases
  · rw [(scan_tasks stages hscan.1 hscan.2).2.2] at hflat
    cases hflat
  · rw [(other_tasks stages hother).2.2] at hflat
    obtain ⟨partition,_,hblock⟩ := List.mem_flatMap.mp hflat
    obtain ⟨inputStage,hmem,hentry⟩ := List.mem_flatMap.mp hblock
    have hlt := h.earlier stage hstage inputStage hmem
    split_ifs at hentry
    · obtain ⟨inputPartition,hpartition,rfl⟩ := List.mem_map.mp hentry
      exact ⟨hlt,List.mem_range.mp hpartition⟩
    · rw [List.mem_singleton.mp hentry]
      exact ⟨hlt,(min_le_right ..).trans_lt (Nat.sub_lt (hpos inputStage) Nat.one_pos)⟩

end Tasks

/-- A stage of a split plan is covered once exactly when it matches its inputs, running its tasks scans its fragments
once exactly when it has no inputs or one task, and every task reads earlier stages. -/
theorem split_tasks (root : PhysicalPlanNode φ) :
    (∀ stage ∈ StagePlanner.split root,
      (CoversOnce (StagePlanner.split root) stage ↔ MatchesInputs (StagePlanner.split root) stage) ∧
        (ScansOnce (StagePlanner.split root) stage ↔
          scanFragments stage.root = [] ∨ stage.inputStages = [] ∨ stage.partitions = 1)) ∧
      ∀ task ∈ TaskPlanner.plan (StagePlanner.split root), ∀ input ∈ task.shuffleInputs,
        input.1 < task.stageId ∧ input.2 < TaskPlanner.inputPartitions (StagePlanner.split root) input.1 :=
  have h := StagePlanner.ordered_split root
  ⟨fun _ hmem => ⟨coversOnce_iff h hmem,scansOnce_iff h hmem⟩,fun _ htask _ hinput => shuffleInputs_earlier h htask hinput⟩

section Joins

def scanNode (fragments : List String) : PhysicalPlanNode String :=
  .operator (.named "ScanExec") [] (.fileRange fragments.length) (some fragments) []

def repartition (partitions : ℕ) (input : PhysicalPlanNode String) : PhysicalPlanNode String :=
  .operator (.exchange (.hashRepartition ["k"] partitions)) [] (.hash ["k"] partitions) none [input]

def partitionedJoin (partitions : ℕ) (left right : PhysicalPlanNode String) : PhysicalPlanNode String :=
  .operator (.named "PartitionedHashJoinExec") [] (.hash ["k"] partitions) none [repartition partitions left,repartition partitions right]

def nestedJoins : PhysicalPlanNode String := partitionedJoin 3 (partitionedJoin 2 (scanNode ["a"]) (scanNode ["b"])) (scanNode ["c"])

def mixedJoin : PhysicalPlanNode String :=
  .operator (.named "JoinExec") [] .unknown none
    [.operator (.named "LimitExec") [] .single none [.operator (.exchange .gather) [] .single none [scanNode ["a"]]],scanNode ["b"]]

/-- The nested join reads the last partition of its inputs twice; the mixed stage lists no fragment. -/
theorem joins_not_covered :
    (∃ stage ∈ StagePlanner.split nestedJoins, ¬CoversOnce (StagePlanner.split nestedJoins) stage) ∧
      ∃ stage ∈ StagePlanner.split mixedJoin, ¬CoversOnce (StagePlanner.split mixedJoin) stage := by
  constructor
  · exact ⟨(StagePlanner.split nestedJoins).get ⟨2,by decide⟩,List.get_mem ..,fun h => absurd h.2.length_eq (by decide)⟩
  · exact ⟨(StagePlanner.split mixedJoin).get ⟨1,by decide⟩,List.get_mem ..,fun h => absurd h.1.length_eq (by decide)⟩

end Joins
end Dodam.Plan
