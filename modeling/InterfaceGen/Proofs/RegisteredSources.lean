import InterfaceGen.Pipeline
import InterfaceGen.Proofs.ProjectedMembers
import InterfaceGen.TypeTable.Resolution
import Mathlib.Data.List.Induction

/-!
What a run leaves in a collector. Each marked type gives one source, and which one does not depend
on the buffers at hand, so that a run offers what fresh generators give for the files one by one.
The collector keeps what it holds and takes each source under a hint of its own, up to the result
at which a stop is first seen. A run answers with the first refusal, or else with exact counts. It
has no answer if a search of the bases does not end in one of its requests.
-/

namespace InterfaceGen

theorem mapM_eq_some_iff {α β : Type} {f : α → Option β} {items : List α} {values : List β} :
    items.mapM f = some values ↔ items.map f = values.map some := by
  induction items generalizing values with
  | nil => cases values <;> simp
  | cons item rest ih =>
      cases values with
      | nil => simp [List.mapM_cons, Option.bind_eq_some_iff]
      | cons value values =>
          simp [List.mapM_cons, Option.bind_eq_some_iff, ih, and_comm]

theorem mapM_eq_none_iff {α β : Type} {f : α → Option β} {items : List α} :
    items.mapM f = none ↔ ∃ item ∈ items, f item = none := by
  induction items with
  | nil => simp
  | cons item rest ih =>
      cases first : f item with
      | none => simp [List.mapM_cons, first]
      | some value => cases others : rest.mapM f <;> simp_all [List.mapM_cons]

/-- The answer of a fresh generator to a request, if it has one. -/
def Request.answer (request : Request) (options : Options) : Option Outcome :=
  ((Generator.ofOptions options).generate request).map Prod.fst

/-- There is work to do for the request, and a search of the bases in it does not end. -/
def Request.IsEndless (request : Request) (options : Options) : Prop :=
  request.stop.isSeenBefore = false ∧
    ∃ decl location, request.subject? = some (decl, location) ∧
      ¬ (request.projection options.policy decl).SearchesEnd

theorem Request.answer_eq_none_iff (request : Request) (options : Options) :
    request.answer options = none ↔ request.IsEndless options := by
  rw [answer, Option.map_eq_none_iff, Generator.generate]
  cases seen : request.stop.isSeenBefore with
  | true => simp [IsEndless, seen]
  | false =>
      cases subject : request.subject? with
      | none => simp [IsEndless, subject]
      | some found =>
          obtain ⟨decl, location⟩ := found
          cases members : (request.projection options.policy decl).members with
          | none =>
              have endless := (Projection.members_eq_none_iff _).mp members
              simp [IsEndless, seen, subject, Generator.ofOptions, members, endless]
          | some shown =>
              have ends := ((Projection.members_eq_some_iff _ shown).mp members).1
              cases request.stop.isSeenAfter <;>
                simp [IsEndless, subject, Generator.ofOptions, members, ends]

/-- The answers of fresh generators to some requests, if each has one. -/
def answersOf (options : Options) (requests : List Request) : Option (List Outcome) :=
  requests.mapM (·.answer options)

namespace Generator

theorem options_of_generate {generator next : Generator} {request : Request} {outcome : Outcome}
    (h : generator.generate request = some (outcome, next)) : next.options = generator.options := by
  obtain ⟨-, -, rfl⟩ | ⟨-, -, rfl⟩ | ⟨_, _, _, _, _, -, rfl⟩ := generate_cases h <;> rfl

/-- A buffer comes empty from the pool, so the pool plays no part in the answer. -/
theorem map_fst_generate (generator : Generator) (request : Request) :
    (generator.generate request).map Prod.fst = request.answer generator.options := by
  unfold Request.answer generate
  simp only [BufferPool.acquire_fst, ofOptions]
  split
  · rfl
  · split
    · rfl
    · rename_i decl location subject
      cases (request.projection generator.options.policy decl).members with
      | none => rfl
      | some members => split <;> rfl

theorem map_fst_generateAll (generator : Generator) (requests : List Request) :
    (generator.generateAll requests).map Prod.fst = answersOf generator.options requests := by
  induction requests generalizing generator with
  | nil => rfl
  | cons request rest ih =>
      rw [answersOf, List.mapM_cons, ← map_fst_generate, ← answersOf]
      cases first : generator.generate request with
      | none => simp [generateAll, first]
      | some result =>
          obtain ⟨outcome, next⟩ := result
          rw [← options_of_generate first, ← ih next]
          cases later : next.generateAll rest <;> simp [generateAll, first, later]

end Generator

/-- The requests for all marked types of some files, in the order of discovery: by file, then by
place in the file, then by marker. -/
def requestsOf (resolver : Resolver) (files : List SourceFile) : List Request :=
  files.flatMap (·.requests resolver)

/-- The sources for some files by fresh generators, in the order of discovery. -/
def sourcesOf (options : Options) (resolver : Resolver) (files : List SourceFile) :
    Option (List Source) :=
  (answersOf options (requestsOf resolver files)).map (·.filterMap Outcome.source?)

/-- A marked type has an interface generated, if there is any answer and no stop comes. -/
theorem SourceFile.generated_of_answer {file : SourceFile} {resolver : Resolver}
    {request : Request} (listed : request ∈ file.requests resolver) {options : Options}
    {outcome : Outcome} (answered : request.answer options = some outcome) :
    ∃ source, outcome = .generated source := by
  obtain ⟨marked, found, rfl⟩ := List.mem_map.mp listed
  obtain ⟨entry, kept, marking⟩ := List.mem_flatMap.mp found
  obtain ⟨marker, _, rfl⟩ := List.mem_map.mp marking
  obtain ⟨member, notInterface⟩ := List.mem_filter.mp kept
  have typed : entry.1.type? = some entry.2 := type?_of_mem_typeSites member
  have subject : Request.subject? ⟨file, entry.1, marker, resolver, .never⟩ ≠ none := by
    simp [Request.subject?, Location.ofSite?, typed, of_decide_eq_true notInterface]
  obtain ⟨⟨_, next⟩, generated, rfl⟩ := Option.map_eq_some_iff.mp answered
  obtain ⟨cut, -, -⟩ | ⟨none, -, -⟩ | ⟨_, _, _, _, _, done, -⟩ := Generator.generate_cases generated
  · cases cut
  · exact absurd none subject
  · exact ⟨_, done⟩

theorem length_requestsOf (resolver : Resolver) (files : List SourceFile) :
    (requestsOf resolver files).length = (files.flatMap SourceFile.markedTypes).length := by
  simp [requestsOf, List.length_flatMap, SourceFile.requests]

theorem map_filterMap_source? {outcomes : List Outcome}
    (generated : ∀ outcome ∈ outcomes, ∃ source, outcome = .generated source) :
    (outcomes.filterMap Outcome.source?).map .generated = outcomes := by
  induction outcomes with
  | nil => rfl
  | cons outcome rest ih =>
      obtain ⟨⟨source, rfl⟩, later⟩ := List.forall_mem_cons.mp generated
      simp [Outcome.source?, ih later]

/-- All answers are sources. -/
theorem answersOf_requestsOf (options : Options) (resolver : Resolver) (files : List SourceFile) :
    answersOf options (requestsOf resolver files) =
      (sourcesOf options resolver files).map (·.map .generated) := by
  cases answers : answersOf options (requestsOf resolver files) with
  | none => simp [sourcesOf, answers]
  | some outcomes =>
      have generated : ∀ outcome ∈ outcomes, ∃ source, outcome = .generated source := by
        intro outcome listed
        have answered : some outcome ∈ (requestsOf resolver files).map (·.answer options) := by
          rw [mapM_eq_some_iff.mp answers]
          exact List.mem_map_of_mem listed
        obtain ⟨request, own, found⟩ := List.mem_map.mp answered
        obtain ⟨file, _, inside⟩ := List.mem_flatMap.mp own
        exact file.generated_of_answer inside found
      simp [sourcesOf, answers, map_filterMap_source? generated]

theorem length_of_sourcesOf {options : Options} {resolver : Resolver} {files : List SourceFile}
    {sources : List Source} (found : sourcesOf options resolver files = some sources) :
    sources.length = (files.flatMap SourceFile.markedTypes).length := by
  have answers := answersOf_requestsOf options resolver files
  rw [found, Option.map_some, answersOf, mapM_eq_some_iff] at answers
  have lengths := congrArg List.length answers
  simpa [length_requestsOf] using lengths.symm

theorem synthesize_eq (file : SourceFile) (resolver : Resolver) :
    synthesize file resolver =
      (answersOf .default (file.requests resolver)).map (·.filterMap Outcome.source?) := by
  have answers : (Generator.default.generateAll (file.requests resolver)).map Prod.fst =
      answersOf .default (file.requests resolver) :=
    Generator.map_fst_generateAll Generator.default _
  rw [← answers, Option.map_map]
  rfl

/-- With default options the files have the sources that are synthesized for each of them. -/
theorem sourcesOf_default (resolver : Resolver) (files : List SourceFile) :
    sourcesOf .default resolver files =
      (files.mapM (synthesize · resolver)).map List.flatten := by
  induction files with
  | nil => rfl
  | cons file rest ih =>
      have all : answersOf .default (requestsOf resolver (file :: rest)) =
          (answersOf .default (file.requests resolver)).bind fun own =>
            (answersOf .default (requestsOf resolver rest)).map (own ++ ·) := by
        simp [answersOf, requestsOf, List.mapM_append, Option.map_eq_bind, Function.comp_def]
      rw [sourcesOf] at ih ⊢
      rw [all, List.mapM_cons, synthesize_eq]
      cases answersOf .default (file.requests resolver) with
      | none => rfl
      | some own =>
          cases others : answersOf .default (requestsOf resolver rest) with
          | none =>
              rw [others] at ih
              have none : rest.mapM (synthesize · resolver) = none :=
                Option.map_eq_none_iff.mp ih.symm
              simp [none]
          | some outcomes =>
              rw [others] at ih
              obtain ⟨parts, found, joined⟩ := Option.map_eq_some_iff.mp ih.symm
              simp [found, joined]

namespace Collector
variable (taken : List String) (sources : List Source)

/-- The hint is taken, or one of the sources has it. -/
def HasCome (hint : String) : Prop :=
  hint ∈ taken ∨ ∃ source ∈ sources, source.key.text = hint

instance (hint : String) : Decidable (HasCome taken sources hint) :=
  inferInstanceAs (Decidable (_ ∨ _))

/-- When the source with this number is due, its hint has come already. -/
def IsRefused (entry : Source × Nat) : Prop :=
  HasCome taken (sources.take entry.2) entry.1.key.text

instance (entry : Source × Nat) : Decidable (IsRefused taken sources entry) :=
  inferInstanceAs (Decidable (HasCome ..))

/-- The sources whose hint is neither taken nor that of an earlier one. -/
def accepted : List Source :=
  (sources.zipIdx.filter fun entry => !decide (IsRefused taken sources entry)).map Prod.fst

/-- The first of the sources whose hint has come already. -/
def firstRefused? : Option Source :=
  (sources.zipIdx.find? fun entry => IsRefused taken sources entry).map Prod.fst

variable {sources}

/-- What follows in the list has no influence on whether a source is refused. -/
theorem isRefused_append {entry : Source × Nat} (listed : entry ∈ sources.zipIdx)
    (later : List Source) :
    IsRefused taken (sources ++ later) entry ↔ IsRefused taken sources entry := by
  have inside : entry.2 < sources.length := by
    have := List.snd_lt_of_mem_zipIdx listed
    omega
  rw [IsRefused, List.take_append_of_le_length (Nat.le_of_lt inside), IsRefused]

theorem isRefused_last (source : Source) :
    IsRefused taken (sources ++ [source]) (source, sources.length) ↔
      HasCome taken sources source.key.text := by
  simp [IsRefused]

theorem accepted_concat (source : Source) :
    accepted taken (sources ++ [source]) =
      accepted taken sources ++ if HasCome taken sources source.key.text then [] else [source] := by
  have same : (sources.zipIdx.filter fun entry =>
        !decide (IsRefused taken (sources ++ [source]) entry)) =
      sources.zipIdx.filter fun entry => !decide (IsRefused taken sources entry) := by
    apply List.filter_congr
    intro entry listed
    simp only [isRefused_append taken listed]
  rw [accepted, accepted, List.zipIdx_append, List.filter_append, List.map_append, same]
  by_cases come : HasCome taken sources source.key.text <;>
    simp [come, isRefused_last]

theorem firstRefused?_concat (source : Source) :
    firstRefused? taken (sources ++ [source]) =
      (firstRefused? taken sources <|>
        if HasCome taken sources source.key.text then some source else none) := by
  have same : (sources.zipIdx.find? fun entry => IsRefused taken (sources ++ [source]) entry) =
      sources.zipIdx.find? fun entry => IsRefused taken sources entry := by
    rw [← List.head?_filter, ← List.head?_filter]
    apply congrArg List.head?
    apply List.filter_congr
    intro entry listed
    simp only [isRefused_append taken listed]
  rw [firstRefused?, firstRefused?, List.zipIdx_append, List.find?_append, same]
  cases sources.zipIdx.find? fun entry => IsRefused taken sources entry <;>
    by_cases come : HasCome taken sources source.key.text <;>
      simp [come, isRefused_last]

theorem hasCome_concat (source : Source) (hint : String) :
    HasCome taken (sources ++ [source]) hint ↔
      HasCome taken sources hint ∨ source.key.text = hint := by
  simp [HasCome, or_and_right, exists_or, or_assoc]

/-- A hint that has come is taken from then on, whether or not its source was. -/
theorem mem_hints_accepted (hint : String) :
    hint ∈ taken ++ (accepted taken sources).map (·.key.text) ↔ HasCome taken sources hint := by
  induction sources using List.reverseRecOn with
  | nil => simp [accepted, HasCome]
  | append_singleton earlier source ih =>
      rw [accepted_concat, hasCome_concat, ← ih]
      by_cases come : HasCome taken earlier source.key.text
      · have known : source.key.text = hint →
            hint ∈ taken ++ (accepted taken earlier).map (·.key.text) := by
          rintro rfl
          exact ih.mpr come
        simp only [come, if_true, List.append_nil]
        exact ⟨.inl, fun h => h.elim id known⟩
      · simp [come, or_assoc, eq_comm]

theorem accepted_of_firstRefused? (none : firstRefused? taken sources = none) :
    accepted taken sources = sources := by
  have admitted : ∀ entry ∈ sources.zipIdx, ¬ IsRefused taken sources entry := by
    simpa [firstRefused?] using none
  have all : (sources.zipIdx.filter fun entry => !decide (IsRefused taken sources entry)) =
      sources.zipIdx := by
    apply List.filter_eq_self.mpr
    intro entry listed
    simp [admitted entry listed]
  rw [accepted, all, List.zipIdx_map_fst]

end Collector

namespace Interruption

theorem isSeenAt_mono {interruption : Interruption} {number later : Nat}
    (seen : interruption.isSeenAt number = true) (le : number ≤ later) :
    interruption.isSeenAt later = true := by
  cases interruption with
  | never => exact seen
  | beforeResults isNoticed => rfl
  | afterResults count =>
      simp only [isSeenAt, decide_eq_true_eq] at seen ⊢
      omega

/-- A stop that comes for any invocation is seen by every registration. -/
theorem isSeenAt_of_stopFor {interruption : Interruption} {invocation : Nat}
    (comes : interruption.stopFor invocation ≠ .never) (number : Nat) :
    interruption.isSeenAt number = true := by
  cases interruption with
  | never | afterResults count => exact absurd rfl comes
  | beforeResults stop => rfl

end Interruption

namespace Pipeline
open Collector

/-- There is a stop to heed when the result with this number is due. -/
def sees (pipeline : Pipeline) (interruption : Interruption) (number : Nat) : Bool :=
  pipeline.heedsStop && interruption.isSeenAt number

/-- Of `n` results the pipeline takes `k` before it first sees a stop, and all if it sees none. -/
structure StopsAfter (pipeline : Pipeline) (interruption : Interruption) (n k : Nat) : Prop where
  le : k ≤ n
  unseen : ∀ number < k, pipeline.sees interruption number = false
  seen : k < n → pipeline.sees interruption k = true

/-- What has been registered when a collector has been offered these sources and nothing else. -/
def registered (initial : Collector) (sources : List Source) : Registration Collector where
  state := ⟨initial.sources ++
    (accepted initial.hints sources).map fun source => (source.key.text, source.text)⟩
  summary := ⟨(accepted initial.hints sources).length, 0, 0⟩
  firstError :=
    (firstRefused? initial.hints sources).map fun source => .duplicateHint source.key.text

/-- The results that a run registers, in the order of discovery, if all requests are answered. -/
def results (pipeline : Pipeline) (interruption : Interruption) (initial : Collector)
    (files : List SourceFile) : Option (List Outcome) :=
  answersOf pipeline.generator.options
    (pipeline.requests interruption Collector.sink initial files)

theorem length_of_results {pipeline : Pipeline} {interruption : Interruption} {initial : Collector}
    {files : List SourceFile} {outcomes : List Outcome}
    (found : pipeline.results interruption initial files = some outcomes) :
    outcomes.length = (files.flatMap SourceFile.markedTypes).length := by
  have lengths := congrArg List.length (mapM_eq_some_iff.mp found)
  rw [← length_requestsOf pipeline.resolver]
  simpa [requests, requestsOf] using lengths.symm

/-- A run registers its results. -/
theorem map_fst_runUnder (pipeline : Pipeline) (interruption : Interruption) (initial : Collector)
    (files : List SourceFile) :
    (pipeline.runUnder interruption Collector.sink initial files).map Prod.fst =
      (pipeline.results interruption initial files).map fun outcomes =>
        outcomes.zipIdx.foldl (pipeline.register interruption Collector.sink)
          ⟨initial, ⟨0, 0, 0⟩, none⟩ := by
  rw [results, ← Generator.map_fst_generateAll, runUnder]
  cases pipeline.generator.generateAll
    (pipeline.requests interruption Collector.sink initial files) <;> rfl

section Collecting
variable {pipeline : Pipeline} {interruption : Interruption} (initial : Collector)

theorem mustStop_collector (collector : Collector) (number : Nat) :
    pipeline.mustStop Collector.sink collector (interruption.isSeenAt number) =
      pipeline.sees interruption number := by
  simp [mustStop, sees, Collector.sink]

theorem contains_hints_registered (sources : List Source) (hint : String) :
    (registered initial sources).state.hints.contains hint = true ↔
      HasCome initial.hints sources hint := by
  rw [← mem_hints_accepted, List.contains_iff_mem]
  simp [registered, Collector.hints, Function.comp_def]

theorem add_registered (sources : List Source) (source : Source) :
    Collector.sink.add (registered initial sources).state source.key.text source.text =
      if HasCome initial.hints sources source.key.text then
        .error (.duplicateHint source.key.text)
      else .ok (registered initial (sources ++ [source])).state := by
  have known := contains_hints_registered initial sources source.key.text
  by_cases come : HasCome initial.hints sources source.key.text
  · rw [if_pos come]
    exact if_pos (known.mpr come)
  · rw [if_neg come]
    have added : Collector.sink.add (registered initial sources).state source.key.text source.text =
        .ok ⟨(registered initial sources).state.sources ++ [(source.key.text, source.text)]⟩ :=
      if_neg (mt known.mp come)
    rw [added]
    simp [registered, accepted_concat, come]

/-- One source more is offered. -/
theorem register_generated {sources : List Source}
    (unseen : pipeline.sees interruption sources.length = false) (source : Source) :
    pipeline.register interruption Collector.sink (registered initial sources)
        (.generated source, sources.length) =
      registered initial (sources ++ [source]) := by
  simp only [register, mustStop_collector, unseen, Bool.false_eq_true, if_false, add_registered]
  by_cases come : HasCome initial.hints sources source.key.text
  · simp only [come, if_true, registered, accepted_concat, firstRefused?_concat, List.append_nil]
    cases firstRefused? initial.hints sources <;> rfl
  · simp [come, registered, accepted_concat, firstRefused?_concat]

theorem foldl_register_generated {sources : List Source}
    (unseen : ∀ number < sources.length, pipeline.sees interruption number = false) :
    (sources.map Outcome.generated).zipIdx.foldl
        (pipeline.register interruption Collector.sink) (registered initial []) =
      registered initial sources := by
  induction sources using List.reverseRecOn with
  | nil => rfl
  | append_singleton earlier source ih =>
      have before : ∀ number < earlier.length, pipeline.sees interruption number = false := by
        intro number inside
        apply unseen
        simp only [List.length_append]
        omega
      have now : pipeline.sees interruption earlier.length = false := by
        apply unseen
        simp
      rw [List.map_append, List.zipIdx_append, List.foldl_append, ih before]
      simpa using register_generated initial now source

/-- Once a stop is seen, the rest is counted and nothing else happens. -/
theorem foldl_register_seen {start : Nat} (seen : pipeline.sees interruption start = true)
    (outcomes : List Outcome) (done : Registration Collector) :
    (outcomes.zipIdx start).foldl (pipeline.register interruption Collector.sink) done =
      { done with summary :=
          { done.summary with cancelled := done.summary.cancelled + outcomes.length } } := by
  induction outcomes generalizing start done with
  | nil => rfl
  | cons outcome rest ih =>
      have next : pipeline.sees interruption (start + 1) = true := by
        obtain ⟨heeds, asked⟩ := Bool.and_eq_true_iff.mp seen
        exact Bool.and_eq_true_iff.mpr
          ⟨heeds, Interruption.isSeenAt_mono asked (Nat.le_succ start)⟩
      rw [List.zipIdx_cons, List.foldl_cons, ih next]
      simp only [register, mustStop_collector, seen, if_true, List.length_cons]
      congr 2
      omega

/-- If the registration of the first result sees no stop, none comes for an invocation. -/
theorem requests_of_unseen (unseen : pipeline.sees interruption 0 = false)
    (files : List SourceFile) :
    pipeline.requests interruption Collector.sink initial files =
      requestsOf pipeline.resolver files := by
  have whole (number : Nat) :
      pipeline.stopOf Collector.sink initial (interruption.stopFor number) = .never := by
    by_cases comes : interruption.stopFor number = .never
    · simp [stopOf, Collector.sink, comes]
    · have asked := Interruption.isSeenAt_of_stopFor comes 0
      have deaf : pipeline.heedsStop = false := by simpa [sees, asked] using unseen
      simp [stopOf, deaf]
  rw [requests, List.mapIdx_eq_zipIdx_map, ← requestsOf]
  have kept : ∀ entry ∈ (requestsOf pipeline.resolver files).zipIdx,
      { entry.1 with stop :=
          pipeline.stopOf Collector.sink initial (interruption.stopFor entry.2) } = entry.1 := by
    intro entry listed
    obtain ⟨file, _, inside⟩ := List.mem_flatMap.mp (List.fst_mem_of_mem_zipIdx listed)
    obtain ⟨marked, _, same⟩ := List.mem_map.mp inside
    rw [whole, ← same]
  rw [List.map_congr_left kept, List.zipIdx_map_fst]

/-- The registration takes the sources before the stop and counts the rest. -/
theorem foldl_register_outcomes {outcomes : List Outcome} {sources : List Source} {k : Nat}
    (stops : pipeline.StopsAfter interruption outcomes.length k)
    (taken : outcomes.take k = sources.map .generated) :
    let done := registered initial sources
    outcomes.zipIdx.foldl (pipeline.register interruption Collector.sink)
        ⟨initial, ⟨0, 0, 0⟩, none⟩ =
      { done with summary := { done.summary with cancelled := outcomes.length - k } } := by
  have le := stops.le
  have count : sources.length = k := by
    have lengths := congrArg List.length taken
    simpa [le] using lengths.symm
  have split : outcomes.zipIdx = (outcomes.take k).zipIdx ++ (outcomes.drop k).zipIdx k := by
    conv_lhs => rw [← List.take_append_drop k outcomes, List.zipIdx_append]
    rw [List.length_take, Nat.min_eq_left le, Nat.zero_add]
  have unseen : ∀ number < sources.length, pipeline.sees interruption number = false := by
    rw [count]
    exact stops.unseen
  have start : (⟨initial, ⟨0, 0, 0⟩, none⟩ : Registration Collector) = registered initial [] := by
    simp [registered, accepted, firstRefused?]
  rw [split, List.foldl_append, start, taken, foldl_register_generated initial unseen]
  by_cases stopped : k < outcomes.length
  · rw [foldl_register_seen (stops.seen stopped), List.length_drop]
    simp [registered]
  · have empty : outcomes.drop k = [] := List.drop_eq_nil_of_le (by omega)
    have none : outcomes.length - k = 0 := by omega
    rw [empty, none]
    rfl

/-- The results before the stop are the first of all sources, and all sources are at hand unless the
stop is seen at once. -/
theorem exists_sources_of_results {files : List SourceFile} {k : Nat}
    (stops : pipeline.StopsAfter interruption (files.flatMap SourceFile.markedTypes).length k)
    {outcomes : List Outcome}
    (found : pipeline.results interruption initial files = some outcomes) :
    ∃ sources, outcomes.take k = sources.map .generated ∧
      (0 < k → ∃ all, sourcesOf pipeline.generator.options pipeline.resolver files = some all ∧
        sources = all.take k) := by
  cases k with
  | zero => exact ⟨[], rfl, fun positive => absurd positive (Nat.lt_irrefl 0)⟩
  | succ k =>
      have whole := requests_of_unseen initial (stops.unseen 0 (Nat.succ_pos k)) files
      rw [results, whole, answersOf_requestsOf] at found
      obtain ⟨all, sources, rfl⟩ := Option.map_eq_some_iff.mp found
      exact ⟨all.take (k + 1), List.map_take.symm, fun _ => ⟨all, sources, rfl⟩⟩

/-- A run that ends has been offered the sources before the stop. -/
theorem exists_registered_of_run {files : List SourceFile} {k : Nat}
    (stops : pipeline.StopsAfter interruption (files.flatMap SourceFile.markedTypes).length k)
    {done : Registration Collector} {next : Pipeline}
    (ended : pipeline.runUnder interruption Collector.sink initial files = some (done, next)) :
    ∃ sources, sources.length = k ∧
      (0 < k → ∃ all, sourcesOf pipeline.generator.options pipeline.resolver files = some all ∧
        sources = all.take k) ∧
      done = { registered initial sources with summary :=
        { (registered initial sources).summary with
          cancelled := (files.flatMap SourceFile.markedTypes).length - k } } := by
  have registration := (map_fst_runUnder pipeline interruption initial files).symm.trans
    (congrArg (Option.map Prod.fst) ended)
  obtain ⟨outcomes, found, final : _ = done⟩ := Option.map_eq_some_iff.mp registration
  obtain ⟨sources, taken, first⟩ := exists_sources_of_results initial stops found
  rw [← length_of_results found] at stops ⊢
  have count : sources.length = k := by
    have lengths := congrArg List.length taken
    simpa [stops.le] using lengths.symm
  refine ⟨sources, count, first, ?_⟩
  rw [← final]
  exact foldl_register_outcomes initial stops taken

/-- The first refusal among these sources, or else the counts. -/
theorem result_registered (sources : List Source) (cancelled : Nat) :
    let done := registered initial sources
    Registration.result { done with summary := { done.summary with cancelled } } =
      match firstRefused? initial.hints sources with
      | some source => .error (.duplicateHint source.key.text)
      | none => .ok ⟨sources.length, 0, cancelled⟩ := by
  cases refused : firstRefused? initial.hints sources with
  | some source => simp [Registration.result, registered, refused]
  | none =>
      have all := accepted_of_firstRefused? initial.hints refused
      simp [Registration.result, registered, refused, all]

end Collecting

/-- A run has an outcome unless one of its requests is endless. It keeps what a collector holds and
adds, in the order of discovery, those of the sources before the stop whose hint is neither held nor
that of an earlier one. It answers with the first refusal among them; without one, all of them are
counted as generated and the rest as cancelled. With default options the sources are those
synthesized for the files one by one. -/
theorem runUnder_collector (pipeline : Pipeline) (interruption : Interruption)
    (initial : Collector) (files : List SourceFile) (k : Nat)
    (stops : pipeline.StopsAfter interruption (files.flatMap SourceFile.markedTypes).length k) :
    let n := (files.flatMap SourceFile.markedTypes).length
    let options := pipeline.generator.options
    let run := pipeline.runUnder interruption Collector.sink initial files
    (run = none ↔ ∃ request ∈ pipeline.requests interruption Collector.sink initial files,
        request.IsEndless options) ∧
      (∀ done next, run = some (done, next) →
        ∃ sources, sources.length = k ∧
          (0 < k → ∃ all, sourcesOf options pipeline.resolver files = some all ∧
            all.length = n ∧ sources = all.take k) ∧
          done.state.sources = initial.sources ++
            (accepted initial.hints sources).map (fun source => (source.key.text, source.text)) ∧
          done.result =
            (match firstRefused? initial.hints sources with
              | some source => .error (.duplicateHint source.key.text)
              | none => .ok ⟨k, 0, n - k⟩)) ∧
      (options = .default →
        sourcesOf options pipeline.resolver files =
          (files.mapM (synthesize · pipeline.resolver)).map List.flatten) := by
  intro n options run
  refine ⟨?_, fun done next ended => ?_, fun default => ?_⟩
  · have unanswered : run = none ↔ pipeline.results interruption initial files = none := by
      rw [← Option.map_eq_none_iff, map_fst_runUnder, Option.map_eq_none_iff]
    rw [unanswered, results, answersOf, mapM_eq_none_iff]
    simp only [Request.answer_eq_none_iff, options]
  · obtain ⟨sources, count, first, rfl⟩ := exists_registered_of_run initial stops ended
    refine ⟨sources, count, fun positive => ?_, rfl, ?_⟩
    · obtain ⟨all, listed, start⟩ := first positive
      exact ⟨all, listed, length_of_sourcesOf listed, start⟩
    · rw [← count]
      exact result_registered initial sources (n - sources.length)
  · rw [default]
    exact sourcesOf_default pipeline.resolver files

/-- A file with the class `A`, marked twice, and the class `B`, and a file with another `A`. -/
def twoFiles : List SourceFile :=
  let marker : Attribute := .ofText "AutoInterface" none
  let decl (name : String) (markers : List Attribute) : TypeDecl :=
    ⟨none, [⟨none, markers⟩], [], .classType, name, [], none, [], [], []⟩
  [⟨"One.cs", [], [.ofType (decl "A" [marker, marker]) [], .ofType (decl "B" [marker]) []]⟩,
    ⟨"Two.cs", [], [.ofType (decl "A" [marker]) []]⟩]

/-- Stopped after three of four results, the run has one source refused for its twin and one for
what the collector held; stopped after one, it has none refused. -/
theorem runUnder_collector_twoFiles :
    let pipeline := ofOptions .default TypeTable.initial.resolver true
    let initial : Collector := ⟨[("IB_B_One.cs.g.cs", "")]⟩
    let after (count : Nat) :=
      (pipeline.runUnder (.afterResults count) Collector.sink initial twoFiles).map fun run =>
        (run.1.state.hints, run.1.result)
    after 3 = some (["IB_B_One.cs.g.cs", "IA_A_One.cs.g.cs"],
        .error (.duplicateHint "IA_A_One.cs.g.cs")) ∧
      after 1 = some (["IB_B_One.cs.g.cs", "IA_A_One.cs.g.cs"], .ok ⟨1, 0, 3⟩) := by
  intro pipeline initial after
  have stops (count : Nat) (le : count ≤ 4) : pipeline.StopsAfter (.afterResults count)
      (twoFiles.flatMap SourceFile.markedTypes).length count := by
    refine ⟨le, fun number before => ?_, fun _ => ?_⟩
    · simpa [sees, Interruption.isSeenAt] using fun _ => before
    · simp [sees, Interruption.isSeenAt, pipeline, ofOptions]
  have answered : ∀ count ∈ [3, 1],
      ∀ request ∈ pipeline.requests (.afterResults count) Collector.sink initial twoFiles,
        request.answer .default ≠ none := by
    decide +kernel
  have collected (count : Nat) (known : count ∈ [3, 1]) : ∃ all,
      sourcesOf .default TypeTable.initial.resolver twoFiles = some all ∧
        after count = some
          (initial.hints ++ (accepted initial.hints (all.take count)).map (·.key.text),
            match firstRefused? initial.hints (all.take count) with
            | some source => .error (.duplicateHint source.key.text)
            | none => .ok ⟨count, 0, 4 - count⟩) := by
    have bounds : 0 < count ∧ count ≤ 4 := by
      simp only [List.mem_cons, List.not_mem_nil, or_false] at known
      omega
    obtain ⟨none, some, -⟩ := runUnder_collector pipeline (.afterResults count) initial twoFiles
      count (stops count bounds.2)
    cases ended : pipeline.runUnder (.afterResults count) Collector.sink initial twoFiles with
    | none =>
        obtain ⟨request, listed, endless⟩ := none.mp ended
        have unanswered := (request.answer_eq_none_iff .default).mpr endless
        exact absurd unanswered (answered count known request listed)
    | some run =>
        obtain ⟨sources, -, first, kept, result⟩ := some run.1 run.2 ended
        obtain ⟨all, found, -, rfl⟩ := first bounds.1
        refine ⟨all, found, ?_⟩
        simp only [after, ended, Option.map_some, Collector.hints, kept, result]
        simp [Function.comp_def]
        rfl
  have listed (all : List Source)
      (found : sourcesOf .default TypeTable.initial.resolver twoFiles = some all) :
      all = (sourcesOf .default TypeTable.initial.resolver twoFiles).getD [] := by
    rw [found, Option.getD_some]
  constructor
  · obtain ⟨all, found, same⟩ := collected 3 (by decide)
    rw [same, listed all found]
    decide +kernel
  · obtain ⟨all, found, same⟩ := collected 1 (by decide)
    rw [same, listed all found]
    decide +kernel

end Pipeline
end InterfaceGen
