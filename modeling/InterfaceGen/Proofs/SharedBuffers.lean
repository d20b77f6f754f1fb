import InterfaceGen.Proofs.ReferenceLayout
import InterfaceGen.Proofs.RegisteredSources
import Mathlib.Data.List.Induction
import Mathlib.Data.List.Nodup

/-!
Holders of buffers do not notice each other. Whatever is taken, written and given back in whatever
order, a pool keeps no more buffers than it may and only empty ones, and a held buffer has the text
that was pushed to it since it was taken. One step does nothing to a name that it does not mention,
so that the text under a name is told by the steps since the last time that name changed hands. A
generator writes in a buffer of its pool and gives it back, and answers every request as if it were
its first.
-/

namespace InterfaceGen

theorem Buffer.text_injective : Function.Injective Buffer.text := by
  intro buffer other same
  have reversed := String.ofList_injective same
  obtain ⟨chars⟩ := buffer
  obtain ⟨others⟩ := other
  simpa using reversed

namespace BufferPool

/-- The pool keeps at most as many buffers as it may, all of them empty. -/
structure IsTidy (pool : BufferPool) : Prop where
  bounded : pool.idleCount ≤ pool.maxIdle
  empty : ∀ buffer ∈ pool.idle, buffer.text = ""

theorem isTidy_ofSize (maxIdle : Nat) : (ofSize maxIdle).IsTidy where
  bounded := Nat.zero_le maxIdle
  empty := by simp [ofSize]

theorem maxIdle_acquire (pool : BufferPool) : pool.acquire.2.maxIdle = pool.maxIdle := by
  unfold acquire
  split <;> rfl

theorem maxIdle_release (pool : BufferPool) (buffer : Buffer) :
    (pool.release buffer).maxIdle = pool.maxIdle := by
  unfold release
  split <;> rfl

variable {pool : BufferPool}

theorem IsTidy.acquire (tidy : pool.IsTidy) : pool.acquire.2.IsTidy := by
  unfold BufferPool.acquire
  split
  · constructor
    · have fewer : pool.idle.dropLast.length ≤ pool.idle.length :=
        (List.dropLast_sublist pool.idle).length_le
      exact Nat.le_trans fewer tidy.bounded
    · intro buffer kept
      exact tidy.empty buffer ((List.dropLast_sublist pool.idle).subset kept)
  · exact tidy

theorem IsTidy.release (tidy : pool.IsTidy) (buffer : Buffer) : (pool.release buffer).IsTidy := by
  unfold BufferPool.release
  split
  · rename_i room
    constructor
    · simpa [idleCount, Nat.add_one_le_iff] using room
    · intro other kept
      obtain old | new := List.mem_append.mp kept
      · exact tidy.empty other old
      · rw [List.mem_singleton.mp new, Buffer.text_clear]
  · exact tidy

end BufferPool

namespace BufferDesk

inductive Step where
  | acquire (name : String)
  | push (name text : String)
  | release (name : String)

namespace Step

def apply (desk : BufferDesk) : Step → BufferDesk
  | .acquire name => desk.acquire name
  | .push name text => desk.push name text
  | .release name => desk.release name

/-- The step takes a buffer under this name, or gives back the one held there. -/
def HandsOver (name : String) : Step → Prop
  | .acquire other | .release other => other = name
  | .push _ _ => False

/-- The text that the step pushes to the buffer under this name. -/
def pushed? (name : String) : Step → Option String
  | .push other text => if other = name then some text else none
  | .acquire _ | .release _ => none

end Step

def run (desk : BufferDesk) (steps : List Step) : BufferDesk :=
  steps.foldl Step.apply desk

theorem run_concat (desk : BufferDesk) (steps : List Step) (step : Step) :
    desk.run (steps ++ [step]) = step.apply (desk.run steps) :=
  List.foldl_concat ..

/-- What the steps push to the buffer under this name, in order and without a gap. -/
def pushed (name : String) (steps : List Step) : String :=
  Text.joined (steps.filterMap (Step.pushed? name))

theorem pushed_concat (name : String) (steps : List Step) (step : Step) :
    pushed name (steps ++ [step]) = pushed name steps ++ (step.pushed? name).getD "" := by
  rw [pushed, List.filterMap_append, Text.joined_append, pushed]
  cases found : step.pushed? name with
  | none => simp [found, Text.joined]
  | some text => simp [found, Text.joined]

section Pool

theorem pool_release (desk : BufferDesk) (name : String) :
    (desk.release name).pool = desk.pool ∨
      ∃ buffer, (desk.release name).pool = desk.pool.release buffer := by
  unfold release
  split
  · exact .inr ⟨_, rfl⟩
  · exact .inl rfl

theorem isTidy_release {desk : BufferDesk} (tidy : desk.pool.IsTidy) (name : String) :
    (desk.release name).pool.IsTidy := by
  obtain same | ⟨buffer, back⟩ := desk.pool_release name
  · rwa [same]
  · rw [back]
    exact tidy.release buffer

theorem maxIdle_release (desk : BufferDesk) (name : String) :
    (desk.release name).pool.maxIdle = desk.pool.maxIdle := by
  obtain same | ⟨buffer, back⟩ := desk.pool_release name
  · rw [same]
  · rw [back, BufferPool.maxIdle_release]

theorem isTidy_apply {desk : BufferDesk} (tidy : desk.pool.IsTidy) (step : Step) :
    (step.apply desk).pool.IsTidy := by
  cases step with
  | acquire name =>
      have taken : (⟨desk.pool.acquire.2, desk.held⟩ : BufferDesk).pool.IsTidy := tidy.acquire
      exact isTidy_release taken name
  | push name text => exact tidy
  | release name => exact isTidy_release tidy name

theorem maxIdle_apply (desk : BufferDesk) (step : Step) :
    (step.apply desk).pool.maxIdle = desk.pool.maxIdle := by
  cases step with
  | acquire name =>
      exact (maxIdle_release ⟨desk.pool.acquire.2, desk.held⟩ name).trans
        desk.pool.maxIdle_acquire
  | push name text => rfl
  | release name => exact desk.maxIdle_release name

theorem isTidy_run (maxIdle : Nat) (steps : List Step) :
    ((ofSize maxIdle).run steps).pool.IsTidy ∧
      ((ofSize maxIdle).run steps).pool.maxIdle = maxIdle := by
  induction steps using List.reverseRecOn with
  | nil => exact ⟨BufferPool.isTidy_ofSize maxIdle, rfl⟩
  | append_singleton steps step ih =>
      rw [run_concat]
      exact ⟨isTidy_apply ih.1 step, (maxIdle_apply _ step).trans ih.2⟩

end Pool

section Held

theorem held_release (desk : BufferDesk) (name : String) :
    (desk.release name).held = desk.held.filter (·.1 != name) := by
  unfold release
  split
  · rfl
  · rename_i absent
    refine (List.filter_eq_self.mpr fun entry listed => ?_).symm
    have differs := List.lookup_eq_none_iff.mp absent entry listed
    simpa [bne, Bool.beq_comm] using differs

theorem held_acquire (desk : BufferDesk) (name : String) :
    (desk.acquire name).held = (name, .empty) :: desk.held.filter (·.1 != name) := by
  have kept := held_release ⟨desk.pool.acquire.2, desk.held⟩ name
  have buffer := desk.pool.acquire_fst
  simp only [acquire, kept, buffer]

/-- A buffer with this text is held under this name. -/
def Holds (desk : BufferDesk) (name text : String) : Prop :=
  ∃ buffer, (name, buffer) ∈ desk.held ∧ buffer.text = text

/-- A name that changes hands is held afterwards if and only if it was taken, with no text. -/
theorem holds_apply_of_handsOver {desk : BufferDesk} {step : Step} {name : String}
    (hands : step.HandsOver name) (text : String) :
    (step.apply desk).Holds name text ↔ step = .acquire name ∧ text = "" := by
  cases step with
  | acquire other =>
      obtain rfl : other = name := hands
      simp [Holds, Step.apply, held_acquire, eq_comm]
  | push other more => cases hands
  | release other =>
      obtain rfl : other = name := hands
      simp [Holds, Step.apply, held_release]

theorem mem_held_push {desk : BufferDesk} {other more name : String} {buffer : Buffer} :
    (name, buffer) ∈ (desk.push other more).held ↔
      ∃ old, (name, old) ∈ desk.held ∧ buffer = if other = name then old.push more else old := by
  simp only [push, List.mem_map]
  constructor
  · rintro ⟨⟨key, old⟩, listed, same⟩
    by_cases here : key = other
    · obtain ⟨rfl, rfl⟩ := Prod.mk.inj ((if_pos here).symm.trans same)
      exact ⟨old, listed, (if_pos here.symm).symm⟩
    · obtain ⟨rfl, rfl⟩ := Prod.mk.inj ((if_neg here).symm.trans same)
      exact ⟨old, listed, (if_neg (Ne.symm here)).symm⟩
  · rintro ⟨old, listed, rfl⟩
    refine ⟨(name, old), listed, ?_⟩
    by_cases here : other = name
    · rw [if_pos here.symm, if_pos here]
    · rw [if_neg (Ne.symm here), if_neg here]

/-- A name that does not change hands keeps its text, up to what is pushed to it. -/
theorem holds_apply_of_not_handsOver {desk : BufferDesk} {step : Step} {name : String}
    (stays : ¬ step.HandsOver name) (text : String) :
    (step.apply desk).Holds name text ↔
      ∃ earlier, desk.Holds name earlier ∧ text = earlier ++ (step.pushed? name).getD "" := by
  cases step with
  | acquire other =>
      have differs : name ≠ other := Ne.symm stays
      simp [Holds, Step.apply, Step.pushed?, held_acquire, differs]
  | release other =>
      have differs : name ≠ other := Ne.symm stays
      simp [Holds, Step.apply, Step.pushed?, held_release, differs]
  | push other more =>
      simp only [Holds, Step.apply, Step.pushed?, mem_held_push]
      constructor
      · rintro ⟨buffer, ⟨old, listed, rfl⟩, rfl⟩
        refine ⟨old.text, ⟨old, listed, rfl⟩, ?_⟩
        split <;> simp
      · rintro ⟨earlier, ⟨old, listed, rfl⟩, rfl⟩
        refine ⟨_, ⟨old, listed, rfl⟩, ?_⟩
        split <;> simp

theorem nodup_apply {desk : BufferDesk} (distinct : (desk.held.map Prod.fst).Nodup) (step : Step) :
    ((step.apply desk).held.map Prod.fst).Nodup := by
  have others (name : String) : ((desk.held.filter (·.1 != name)).map Prod.fst).Nodup :=
    (List.filter_sublist.map Prod.fst).nodup distinct
  cases step with
  | acquire name =>
      rw [Step.apply, held_acquire, List.map_cons]
      exact List.nodup_cons.mpr ⟨by simp, others name⟩
  | push name text =>
      have names : (desk.push name text).held.map Prod.fst = desk.held.map Prod.fst := by
        rw [push, List.map_map]
        refine List.map_congr_left fun entry _ => ?_
        simp only [Function.comp_apply]
        split <;> rfl
      rwa [Step.apply, names]
  | release name =>
      rw [Step.apply, held_release]
      exact others name

end Held

/-- The name was taken in the course of these steps and has not changed hands since; this is what
was pushed to it from then on. -/
def TakenWith (steps : List Step) (name text : String) : Prop :=
  ∃ before after, steps = before ++ .acquire name :: after ∧
    (∀ step ∈ after, ¬ step.HandsOver name) ∧ text = pushed name after

theorem takenWith_concat_of_handsOver {steps : List Step} {step : Step} {name : String}
    (hands : step.HandsOver name) (text : String) :
    TakenWith (steps ++ [step]) name text ↔ step = .acquire name ∧ text = "" := by
  constructor
  · rintro ⟨before, after, split, stays, rfl⟩
    obtain rfl | ⟨middle, last, rfl⟩ := List.eq_nil_or_concat after
    · exact ⟨(List.append_inj' split rfl).2 |> List.singleton_inj.mp, rfl⟩
    · rw [List.concat_eq_append, ← List.cons_append, ← List.append_assoc] at split
      obtain rfl := List.singleton_inj.mp (List.append_inj' split rfl).2
      exact absurd hands (stays step (by simp))
  · rintro ⟨rfl, rfl⟩
    exact ⟨steps, [], rfl, by simp, rfl⟩

theorem takenWith_concat_of_not_handsOver {steps : List Step} {step : Step} {name : String}
    (stays : ¬ step.HandsOver name) (text : String) :
    TakenWith (steps ++ [step]) name text ↔
      ∃ earlier, TakenWith steps name earlier ∧ text = earlier ++ (step.pushed? name).getD "" := by
  constructor
  · rintro ⟨before, after, split, kept, rfl⟩
    obtain rfl | ⟨middle, last, rfl⟩ := List.eq_nil_or_concat after
    · obtain rfl := List.singleton_inj.mp (List.append_inj' split rfl).2
      exact absurd rfl stays
    · rw [List.concat_eq_append, ← List.cons_append, ← List.append_assoc] at split
      obtain ⟨rfl, last⟩ := List.append_inj' split rfl
      obtain rfl := List.singleton_inj.mp last
      rw [List.concat_eq_append, pushed_concat]
      exact ⟨_, ⟨before, middle, rfl, fun step listed => kept step (by simp [listed]), rfl⟩, rfl⟩
  · rintro ⟨_, ⟨before, after, rfl, kept, rfl⟩, rfl⟩
    refine ⟨before, after ++ [step], by simp, ?_, (pushed_concat ..).symm⟩
    intro other listed
    obtain old | new := List.mem_append.mp listed
    · exact kept other old
    · rwa [List.mem_singleton.mp new]

/-- The text under a name is what was pushed to it since it was taken. -/
theorem holds_run_iff (maxIdle : Nat) (steps : List Step) (name text : String) :
    ((ofSize maxIdle).run steps).Holds name text ↔ TakenWith steps name text := by
  induction steps using List.reverseRecOn generalizing text with
  | nil => simp [Holds, TakenWith, run, ofSize]
  | append_singleton steps step ih =>
      rw [run_concat]
      by_cases hands : step.HandsOver name
      · rw [holds_apply_of_handsOver hands, takenWith_concat_of_handsOver hands]
      · rw [holds_apply_of_not_handsOver hands, takenWith_concat_of_not_handsOver hands]
        simp only [ih]

theorem nodup_run (maxIdle : Nat) (steps : List Step) :
    (((ofSize maxIdle).run steps).held.map Prod.fst).Nodup := by
  induction steps using List.reverseRecOn with
  | nil => exact List.nodup_nil
  | append_singleton steps step ih =>
      rw [run_concat]
      exact nodup_apply ih step

theorem mem_held_run_iff (maxIdle : Nat) (steps : List Step) (name : String) (buffer : Buffer) :
    (name, buffer) ∈ ((ofSize maxIdle).run steps).held ↔ TakenWith steps name buffer.text := by
  rw [← holds_run_iff maxIdle]
  constructor
  · intro listed
    exact ⟨buffer, listed, rfl⟩
  · rintro ⟨other, listed, same⟩
    rwa [← Buffer.text_injective same]

end BufferDesk

namespace Generator

theorem isTidy_of_generate {generator next : Generator} {request : Request} {outcome : Outcome}
    (h : generator.generate request = some (outcome, next)) (tidy : generator.pool.IsTidy) :
    next.pool.IsTidy ∧ next.pool.maxIdle = generator.pool.maxIdle := by
  obtain ⟨-, -, rfl⟩ | ⟨-, -, rfl⟩ | ⟨_, _, _, _, _, -, rfl⟩ := generate_cases h
  · exact ⟨tidy, rfl⟩
  · exact ⟨tidy, rfl⟩
  · refine ⟨tidy.acquire.release _, ?_⟩
    exact (BufferPool.maxIdle_release ..).trans (BufferPool.maxIdle_acquire ..)

theorem isTidy_of_generateAll {generator last : Generator} {requests : List Request}
    {outcomes : List Outcome} (h : generator.generateAll requests = some (outcomes, last))
    (tidy : generator.pool.IsTidy) :
    last.pool.IsTidy ∧ last.pool.maxIdle = generator.pool.maxIdle := by
  induction requests generalizing generator outcomes with
  | nil =>
      cases h
      exact ⟨tidy, rfl⟩
  | cons request rest ih =>
      obtain ⟨⟨outcome, next⟩, first, others⟩ := Option.bind_eq_some_iff.mp h
      obtain ⟨⟨later, last⟩, answered, same⟩ := Option.bind_eq_some_iff.mp others
      cases same
      obtain ⟨here, size⟩ := isTidy_of_generate first tidy
      obtain ⟨there, kept⟩ := ih answered here
      exact ⟨there, kept.trans size⟩

end Generator

open BufferDesk in
/-- In every state that taking, writing and giving back can lead to, the pool keeps at most as many
buffers as it may and only empty ones, and a buffer is held under a name exactly if it has the text
pushed there since the name was last taken. A generator answers each of its requests like a fresh
one with the same options, and neither has an answer where the other has none. Its pool is always
such a pool. -/
theorem holders_independent :
    (∀ (maxIdle : Nat) (steps : List Step),
      let desk := (BufferDesk.ofSize maxIdle).run steps
      desk.pool.idleCount ≤ maxIdle ∧ (∀ buffer ∈ desk.pool.idle, buffer.text = "") ∧
        (desk.held.map Prod.fst).Nodup ∧
        ∀ name buffer, (name, buffer) ∈ desk.held ↔
          ∃ before after, steps = before ++ .acquire name :: after ∧
            (∀ step ∈ after, ¬ step.HandsOver name) ∧ buffer.text = pushed name after) ∧
      (∀ (generator : Generator) (requests : List Request),
        (generator.generateAll requests).map Prod.fst = requests.mapM fun request =>
          ((Generator.ofOptions generator.options).generate request).map Prod.fst) ∧
      ∀ (options : Options) (requests : List Request) (outcomes : List Outcome)
        (last : Generator),
        (Generator.ofOptions options).generateAll requests = some (outcomes, last) →
          last.pool.idleCount ≤ options.poolSize ∧ ∀ buffer ∈ last.pool.idle, buffer.text = "" := by
  refine ⟨fun maxIdle steps => ?_, Generator.map_fst_generateAll, ?_⟩
  · obtain ⟨tidy, size⟩ := isTidy_run maxIdle steps
    refine ⟨?_, tidy.empty, nodup_run maxIdle steps, mem_held_run_iff maxIdle steps⟩
    exact Nat.le_trans tidy.bounded (Nat.le_of_eq size)
  · intro options requests outcomes last answered
    have fresh : (Generator.ofOptions options).pool.IsTidy :=
      BufferPool.isTidy_ofSize options.poolSize
    obtain ⟨tidy, size⟩ := Generator.isTidy_of_generateAll answered fresh
    exact ⟨Nat.le_trans tidy.bounded (Nat.le_of_eq size), tidy.empty⟩

/-- Two holders at a desk that keeps one buffer. The second goes on writing while the buffer of the
first is given back, taken by a third and given back again. -/
def twoHolders : List BufferDesk.Step :=
  [.acquire "a", .push "a" "one", .acquire "b", .push "b" "two", .release "a", .acquire "c",
    .push "b" "!", .push "c" "three", .release "c", .push "c" "lost"]

theorem holders_independent_twoHolders :
    let desk := (BufferDesk.ofSize 1).run twoHolders
    let generator : Generator := ⟨.default, ⟨1, [Buffer.empty.push "left over"]⟩⟩
    let fresh := Generator.ofOptions .default
    (∃ buffer, buffer ∈ desk.pool.idle ∧ buffer.text = "") ∧
      ("b", Buffer.empty.push "two!") ∈ desk.held ∧
      (∃ outcome next, fresh.generate shapeRequest = some (outcome, next) ∧
        (generator.generateAll [shapeRequest, shapeRequest]).map Prod.fst =
          some [outcome, outcome]) ∧
      ∃ outcomes last, fresh.generateAll [shapeRequest, shapeRequest] = some (outcomes, last) ∧
        last.pool.idleCount ≤ 8 := by
  intro desk generator fresh
  obtain ⟨desks, answers, pools⟩ := holders_independent
  obtain ⟨-, empty, -, held⟩ := desks 1 twoHolders
  have kept : Buffer.empty ∈ desk.pool.idle := by decide
  refine ⟨⟨_, kept, empty _ kept⟩, (held _ _).mpr ?_, ?_, ?_⟩
  · refine ⟨twoHolders.take 2, twoHolders.drop 3, rfl, ?_, by decide⟩
    simp [twoHolders, BufferDesk.Step.HandsOver]
  · obtain ⟨outcome, next, answer⟩ :
        ∃ outcome next, fresh.generate shapeRequest = some (outcome, next) := ⟨_, _, rfl⟩
    refine ⟨outcome, next, answer, (answers generator _).trans ?_⟩
    have same : (Generator.ofOptions generator.options).generate shapeRequest =
        some (outcome, next) := answer
    simp [List.mapM_cons, same]
  · refine ⟨_, _, rfl, ?_⟩
    exact (pools .default [shapeRequest, shapeRequest] _ _ rfl).1

end InterfaceGen
