import Bench65.Manifest
import Bench65.Proofs.TestCase

/-!
# Suites from manifests

A case of a manifest is put together from five parts, and the first one that cannot be read decides
what is reported of it. `CaseSpec.Settles` ties a computation to the parts it looks at: it yields
what they say (`CaseSpec.Reads`) or fails with the error of the first one that fails
(`CaseSpec.FirstFails`). Computations are put together as they look at their parts (`Settles.bind`),
so that `settles_assemble` is one line for each part.

`Manifest.layered` collects what a suite makes of its manifest, files and settings: the report of
every case (`CaseSpec.Reports`), the budget and the failure plan that count, what is judged, and
that a case depends on nothing that belongs to another.
-/

namespace Bench65

/-! ### Failure plans -/

namespace FailurePlan

theorem foldl_withCall (calls : List Nat) (plan : FailurePlan) :
    calls.foldl withCall plan = { plan with calls := calls.reverse ++ plan.calls } := by
  induction calls generalizing plan with
  | nil => rfl
  | cons call calls ih =>
    rw [List.foldl_cons, ih, List.reverse_cons, List.append_assoc]
    rfl

theorem ofCalls_eq (calls : List Nat) (start : Option Nat) :
    ofCalls calls start = ⟨calls.reverse, start⟩ := by
  unfold ofCalls
  rw [foldl_withCall]
  cases start with
  | none => simp [none]
  | some n => simp [none, withStart]

theorem isEmpty_ofCalls {calls : List Nat} {start : Option Nat} :
    (ofCalls calls start).isEmpty = true ↔ calls = [] ∧ start = Option.none := by
  rw [ofCalls_eq]
  simp [isEmpty]

theorem fails_ofCalls {calls : List Nat} {start : Option Nat} {call : Nat} :
    (ofCalls calls start).fails call = true ↔
      call ∈ calls ∨ ∃ first, start = some first ∧ first ≤ call := by
  rw [ofCalls_eq]
  cases start with
  | none => simp [fails]
  | some n => simp [fails]

end FailurePlan

/-! ### Standard error -/

namespace Expectation

variable {x : Expectation} {r r' : RunResult}

/-- A run is judged by its end and its standard output if nothing is expected of standard error. -/
theorem judge_congr (hexpected : x.errorOutput = none) (houtcome : r.outcome = r'.outcome)
    (hstdout : r.transcript.stdout = r'.transcript.stdout) : x.judge r = x.judge r' := by
  have hstreams : x.streamMismatch r.transcript = x.streamMismatch r'.transcript := by
    rw [streamMismatch, streamMismatch, hexpected, hstdout]
    rfl
  rw [judge, judge, hstreams, houtcome]

/-- The same expectation with standard error left aside. -/
def ignoringStderr (x : Expectation) : Expectation :=
  { x with errorOutput := none }

/-- What it means for a run that something is expected of standard error. -/
structure JudgesStderr (x : Expectation) (expected : List UInt8) (r : RunResult) : Prop where
  pass_iff : x.judge r = .pass ↔
    x.ignoringStderr.judge r = .pass ∧ r.transcript.stderr = expected
  fails_of_ne : x.ignoringStderr.judge r = .pass → r.transcript.stderr ≠ expected →
    ∃ offset e a, DiffersAt expected r.transcript.stderr offset e a ∧
      x.judge r = .fail (.errorOutput offset e a)

theorem judgesStderr {expected : List UInt8} (hexpected : x.errorOutput = some expected)
    (r : RunResult) : x.JudgesStderr expected r where
  pass_iff := by
    rw [judge_eq_iff, judge_eq_iff]
    constructor
    · intro h
      cases h with
      | exited hfault houtcome hstreams =>
        exact ⟨.exited hfault houtcome ⟨hstreams.stdout_eq, nofun⟩,
          hstreams.stderr_eq expected hexpected⟩
      | faulted hfault houtcome hstreams =>
        exact ⟨.faulted hfault houtcome ⟨hstreams.stdout_eq, nofun⟩,
          hstreams.stderr_eq expected hexpected⟩
    · rintro ⟨h, rfl⟩
      have hstderr : ∀ e, x.errorOutput = some e → r.transcript.stderr = e :=
        fun e he => Option.some.inj (hexpected.symm.trans he)
      cases h with
      | exited hfault houtcome hstreams =>
        exact .exited hfault houtcome ⟨hstreams.stdout_eq, hstderr⟩
      | faulted hfault houtcome hstreams =>
        exact .faulted hfault houtcome ⟨hstreams.stdout_eq, hstderr⟩
  fails_of_ne h hne := by
    obtain ⟨offset, e, a, hdiffers⟩ := exists_differsAt hne.symm
    refine ⟨offset, e, a, hdiffers, judge_eq_iff.mpr ?_⟩
    -- the streams are looked at once the end of the run is as expected, standard output first
    cases judge_eq_iff.mp h with
    | exited hfault houtcome hstreams =>
      exact .streams (houtcome ▸ .exited hfault)
        (.errorOutput hstreams.stdout_eq hexpected hdiffers)
    | faulted hfault houtcome hstreams =>
      exact .streams (houtcome ▸ .faulted hfault)
        (.errorOutput hstreams.stdout_eq hexpected hdiffers)

end Expectation

/-! ### The parts of a case -/

namespace CaseSpec

/-- What a case is put together from, other than itself. -/
inductive Part where
  | image
  | labels
  | input
  | output
  | errorOutput

/-- The parts in the order in which they are looked at. -/
def Part.order : List Part :=
  [image, labels, input, output, errorOutput]

/-- A part is the first one to fail, and this is its error. -/
def FirstFails (fails : Part → BenchError → Prop) (e : BenchError) : List Part → Prop
  | [] => False
  | p :: ps => fails p e ∨ (∀ e', ¬ fails p e') ∧ FirstFails fails e ps

/-- A computation is settled by what some parts say: it yields what can be read from them, and fails
with the error of the first one that cannot be read. -/
structure Settles {α : Type} (fails : Part → BenchError → Prop) (ps : List Part)
    (reads : α → Prop) (x : Except BenchError α) : Prop where
  ok : ∀ a, reads a → x = .ok a
  error : ∀ e, FirstFails fails e ps → x = .error e
  total : (∃ a, reads a) ∨ ∃ e, FirstFails fails e ps

section Settles

variable {α β : Type} {fails : Part → BenchError → Prop} {ps qs : List Part} {e : BenchError}
  {reads : α → Prop} {x : Except BenchError α}

theorem firstFails_append :
    FirstFails fails e (ps ++ qs) ↔
      FirstFails fails e ps ∨ (∀ p ∈ ps, ∀ e', ¬ fails p e') ∧ FirstFails fails e qs := by
  induction ps with
  | nil => simp [FirstFails]
  | cons p ps ih =>
    rw [List.cons_append, FirstFails, FirstFails, ih, List.forall_mem_cons, and_or_left, or_assoc,
      and_assoc]

theorem FirstFails.exists_fails (h : FirstFails fails e ps) : ∃ p ∈ ps, fails p e := by
  induction ps with
  | nil => cases h
  | cons p ps ih =>
    rcases h with h | ⟨-, h⟩
    · exact ⟨p, List.mem_cons_self .., h⟩
    · obtain ⟨q, hq, hfails⟩ := ih h
      exact ⟨q, List.mem_cons_of_mem _ hq, hfails⟩

/-- Without a first part that fails there is none. -/
theorem forall_not_fails (h : ∀ e, ¬ FirstFails fails e ps) : ∀ p ∈ ps, ∀ e, ¬ fails p e := by
  induction ps with
  | nil => exact fun _ hp => absurd hp List.not_mem_nil
  | cons p ps ih =>
    have hp : ∀ e, ¬ fails p e := fun e hfails => h e (.inl hfails)
    exact List.forall_mem_cons.mpr ⟨hp, ih fun e hfirst => h e (.inr ⟨hp, hfirst⟩)⟩

theorem Settles.ok_iff (h : Settles fails ps reads x) {a : α} : x = .ok a ↔ reads a := by
  refine ⟨fun hx => ?_, h.ok a⟩
  rcases h.total with ⟨a', ha'⟩ | ⟨e, he⟩
  · cases (h.ok a' ha').symm.trans hx
    exact ha'
  · cases (h.error e he).symm.trans hx

theorem Settles.error_iff (h : Settles fails ps reads x) :
    x = .error e ↔ FirstFails fails e ps := by
  refine ⟨fun hx => ?_, h.error e⟩
  rcases h.total with ⟨a, ha⟩ | ⟨e', he'⟩
  · cases (h.ok a ha).symm.trans hx
  · cases (h.error e' he').symm.trans hx
    exact he'

theorem Settles.congr {reads' : α → Prop} (h : Settles fails ps reads x)
    (hreads : ∀ a, reads' a ↔ reads a) : Settles fails ps reads' x where
  ok a ha := h.ok a ((hreads a).mp ha)
  error := h.error
  total := h.total.imp_left fun ⟨a, ha⟩ => ⟨a, (hreads a).mpr ha⟩

theorem settles_pure (a : α) : Settles fails [] (· = a) (pure a : Except BenchError α) where
  ok _ h := congrArg Except.ok h.symm
  error _ h := h.elim
  total := .inl ⟨a, rfl⟩

/-- A computation that looks at one part. -/
theorem settles_one {p : Part} (hok : ∀ a, reads a → x = .ok a)
    (herror : ∀ e, fails p e → x = .error e) (htotal : (∃ a, reads a) ∨ ∃ e, fails p e) :
    Settles fails [p] reads x where
  ok := hok
  error := by
    rintro e (h | ⟨-, h⟩)
    · exact herror e h
    · cases h
  total := htotal.imp_right fun ⟨e, h⟩ => ⟨e, .inl h⟩

/-- One computation after the other looks at the parts of both. -/
theorem Settles.bind {f : α → Except BenchError β} {reads' : α → β → Prop}
    (hx : Settles fails ps reads x) (hf : ∀ a, reads a → Settles fails qs (reads' a) (f a)) :
    Settles fails (ps ++ qs) (fun b => ∃ a, reads a ∧ reads' a b) (x >>= f) where
  ok := by
    rintro b ⟨a, ha, hb⟩
    rw [hx.ok a ha]
    exact (hf a ha).ok b hb
  error := by
    intro e h
    rcases firstFails_append.mp h with h | ⟨hnone, h⟩
    · rw [hx.error e h]
      rfl
    · -- all parts of the first computation can be read, so it comes to the second
      rcases hx.total with ⟨a, ha⟩ | ⟨e', he'⟩
      · rw [hx.ok a ha]
        exact (hf a ha).error e h
      · obtain ⟨p, hp, hfails⟩ := he'.exists_fails
        exact absurd hfails (hnone p hp e')
  total := by
    rcases hx.total with ⟨a, ha⟩ | ⟨e, he⟩
    · rcases (hf a ha).total with ⟨b, hb⟩ | ⟨e, he⟩
      · exact .inl ⟨b, a, ha, hb⟩
      · refine .inr ⟨e, firstFails_append.mpr (.inr ⟨forall_not_fails fun e' he' => ?_, he⟩)⟩
        cases (hx.error e' he').symm.trans (hx.ok a ha)
    · exact .inr ⟨e, firstFails_append.mpr (.inl he)⟩

end Settles

/-! ### What the parts say -/

section Parts

/-- The bytes of a source, if there is one. -/
inductive SourceReads (files : Files) (base : String) :
    Option ByteSource → Option (List UInt8) → Prop
  | absent : SourceReads files base none none
  | text (s : String) : SourceReads files base (some (.text s)) (some s.toByteArray.toList)
  | file {path : String} {bytes : List UInt8}
      (hread : files.read (Path.join base path) = .ok bytes) :
      SourceReads files base (some (.file path)) (some bytes)

theorem SourceReads.eq_none {files : Files} {base : String} {bytes : Option (List UInt8)}
    (h : SourceReads files base none bytes) : bytes = none := by
  cases h
  rfl

theorem SourceReads.exists_eq_some {files : Files} {base : String} {source : ByteSource}
    {bytes : Option (List UInt8)} (h : SourceReads files base (some source) bytes) :
    ∃ read, bytes = some read := by
  cases h with
  | text s => exact ⟨_, rfl⟩
  | file hread => exact ⟨_, rfl⟩

/-- The file that a source names cannot be read. -/
inductive SourceFails (files : Files) (base : String) : Option ByteSource → BenchError → Prop
  | unreadable {path : String} {cause : FileError}
      (hread : files.read (Path.join base path) = .error cause) :
      SourceFails files base (some (.file path))
        (.document (.unreadable (Path.join base path) cause))

/-- The program of a case, without its labels. -/
inductive ImageReads (spec : CaseSpec) (files : Files) (base : String) : Image → Prop
  | raw {bytes : List UInt8} {placement : RawPlacement}
      (hread : files.read (Path.join base spec.image) = .ok bytes)
      (hraw : spec.raw = some placement) :
      ImageReads spec files base
        (Image.raw bytes placement.load placement.entry placement.variant)
  | parsed {bytes : List UInt8} {image : Image}
      (hread : files.read (Path.join base spec.image) = .ok bytes) (hraw : spec.raw = none)
      (hparse : Image.parse bytes = .ok image) : ImageReads spec files base image

/-- The program of a case with its labels, from the one without. -/
inductive LabelsRead (spec : CaseSpec) (files : Files) (base : String) (plain : Image) :
    Image → Prop
  | absent (hlabels : spec.labels = none) : LabelsRead spec files base plain plain
  | file {path text : String} {symbols : Symbols} (hlabels : spec.labels = some path)
      (hread : files.readText (Path.join base path) = .ok text)
      (hparse : Symbols.parse text = .ok symbols) :
      LabelsRead spec files base plain (plain.withSymbols symbols)

/-- A part of a case is missing or malformed, which is reported as an error. -/
inductive PartFails (spec : CaseSpec) (files : Files) (base : String) : Part → BenchError → Prop
  | imageUnreadable {cause : FileError}
      (hread : files.read (Path.join base spec.image) = .error cause) :
      PartFails spec files base .image
        (.load (.unreadable (Path.join base spec.image) cause))
  | imageMalformed {bytes : List UInt8} {e : LoadError}
      (hread : files.read (Path.join base spec.image) = .ok bytes) (hraw : spec.raw = none)
      (hparse : Image.parse bytes = .error e) : PartFails spec files base .image (.load e)
  | labelsUnreadable {path : String} {cause : FileError} (hlabels : spec.labels = some path)
      (hread : files.readText (Path.join base path) = .error cause) :
      PartFails spec files base .labels (.load (.unreadable (Path.join base path) cause))
  | labelsMalformed {path text : String} {e : LoadError} (hlabels : spec.labels = some path)
      (hread : files.readText (Path.join base path) = .ok text)
      (hparse : Symbols.parse text = .error e) : PartFails spec files base .labels (.load e)
  | input {e : BenchError} (h : SourceFails files base spec.input e) :
      PartFails spec files base .input e
  | output {e : BenchError} (h : SourceFails files base spec.expectedOutput e) :
      PartFails spec files base .output e
  | errorOutput {e : BenchError} (h : SourceFails files base spec.expectedErrorOutput e) :
      PartFails spec files base .errorOutput e

variable {spec : CaseSpec} {files : Files} {base : String}

/-! ### Reading the parts -/

theorem resolveSource?_of_reads {source : Option ByteSource} {bytes : Option (List UInt8)}
    (h : SourceReads files base source bytes) : resolveSource? source files base = .ok bytes := by
  cases h with
  | absent => rfl
  | text s => rfl
  | file hread =>
    unfold resolveSource? ByteSource.resolve Files.contents
    simp only [hread]
    rfl

theorem resolveSource?_of_fails {source : Option ByteSource} {e : BenchError}
    (h : SourceFails files base source e) : resolveSource? source files base = .error e := by
  cases h with
  | unreadable hread =>
    unfold resolveSource? ByteSource.resolve Files.contents
    simp only [hread]
    rfl

theorem source_total (files : Files) (base : String) (source : Option ByteSource) :
    (∃ bytes, SourceReads files base source bytes) ∨ ∃ e, SourceFails files base source e := by
  rcases source with - | (s | path)
  · exact .inl ⟨_, .absent⟩
  · exact .inl ⟨_, .text s⟩
  · cases hread : files.read (Path.join base path) with
    | ok bytes => exact .inl ⟨_, .file hread⟩
    | error cause => exact .inr ⟨_, .unreadable hread⟩

/-- A source is settled by the part it is. -/
theorem settles_resolveSource? (source : Option ByteSource) {p : Part}
    (hpart : ∀ e, PartFails spec files base p e ↔ SourceFails files base source e) :
    Settles (PartFails spec files base) [p] (SourceReads files base source)
      (resolveSource? source files base) := by
  refine settles_one (fun _ h => resolveSource?_of_reads h)
    (fun e h => resolveSource?_of_fails ((hpart e).mp h)) ?_
  exact (source_total files base source).imp_right fun ⟨e, h⟩ => ⟨e, (hpart e).mpr h⟩

/-- Reads the program of a case without its labels. -/
def readImage (spec : CaseSpec) (files : Files) (base : String) : Except LoadError Image := do
  let bytes ← files.load (Path.join base spec.image)
  match spec.raw with
  | some raw => pure (Image.raw bytes raw.load raw.entry raw.variant)
  | none => Image.parse bytes

/-- Reads the labels of a program. -/
def readLabels (spec : CaseSpec) (files : Files) (base : String) (plain : Image) :
    Except LoadError Image :=
  match spec.labels with
  | none => pure plain
  | some labels => do
    let text ← files.loadText (Path.join base labels)
    let symbols ← Symbols.parse text
    pure (plain.withSymbols symbols)

theorem resolveImage_eq (spec : CaseSpec) (files : Files) (base : String) :
    (spec.resolveImage files base).mapError BenchError.load =
      (spec.readImage files base).mapError BenchError.load >>= fun plain =>
        (spec.readLabels files base plain).mapError BenchError.load := by
  have hsplit : spec.resolveImage files base =
      spec.readImage files base >>= spec.readLabels files base := by
    unfold resolveImage readImage
    rw [bind_assoc]
    refine bind_congr fun bytes => ?_
    cases spec.raw with
    | some raw => rfl
    | none => rfl
  rw [hsplit]
  cases spec.readImage files base with
  | ok plain => rfl
  | error e => rfl

theorem settles_readImage (spec : CaseSpec) (files : Files) (base : String) :
    Settles (PartFails spec files base) [.image] (ImageReads spec files base)
      ((spec.readImage files base).mapError .load) := by
  refine settles_one (fun image h => ?_) (fun e h => ?_) ?_
  · cases h with
    | raw hread hraw =>
      simp only [readImage, Files.load, hread, hraw]
      rfl
    | parsed hread hraw hparse =>
      simp only [readImage, Files.load, hread, hraw]
      show (Image.parse _).mapError BenchError.load = _
      rw [hparse]
      rfl
  · cases h with
    | imageUnreadable hread =>
      simp only [readImage, Files.load, hread]
      rfl
    | imageMalformed hread hraw hparse =>
      simp only [readImage, Files.load, hread, hraw]
      show (Image.parse _).mapError BenchError.load = _
      rw [hparse]
      rfl
  · cases hread : files.read (Path.join base spec.image) with
    | error cause => exact .inr ⟨_, .imageUnreadable hread⟩
    | ok bytes =>
      cases hraw : spec.raw with
      | some placement => exact .inl ⟨_, .raw hread hraw⟩
      | none =>
        cases hparse : Image.parse bytes with
        | ok image => exact .inl ⟨_, .parsed hread hraw hparse⟩
        | error e => exact .inr ⟨_, .imageMalformed hread hraw hparse⟩

theorem settles_readLabels (spec : CaseSpec) (files : Files) (base : String) (plain : Image) :
    Settles (PartFails spec files base) [.labels] (LabelsRead spec files base plain)
      ((spec.readLabels files base plain).mapError .load) := by
  refine settles_one (fun image h => ?_) (fun e h => ?_) ?_
  · cases h with
    | absent hlabels =>
      simp only [readLabels, hlabels]
      rfl
    | file hlabels hread hparse =>
      simp only [readLabels, hlabels, Files.loadText, hread]
      show (Symbols.parse _ >>= _).mapError BenchError.load = _
      rw [hparse]
      rfl
  · cases h with
    | labelsUnreadable hlabels hread =>
      simp only [readLabels, hlabels, Files.loadText, hread]
      rfl
    | labelsMalformed hlabels hread hparse =>
      simp only [readLabels, hlabels, Files.loadText, hread]
      show (Symbols.parse _ >>= _).mapError BenchError.load = _
      rw [hparse]
      rfl
  · cases hlabels : spec.labels with
    | none => exact .inl ⟨_, .absent hlabels⟩
    | some path =>
      cases hread : files.readText (Path.join base path) with
      | error cause => exact .inr ⟨_, .labelsUnreadable hlabels hread⟩
      | ok text =>
        cases hparse : Symbols.parse text with
        | ok symbols => exact .inl ⟨_, .file hlabels hread hparse⟩
        | error e => exact .inr ⟨_, .labelsMalformed hlabels hread hparse⟩

end Parts

/-! ### Assembling a case -/

/-- What the files of a case say. -/
structure Contents where
  image : Image
  input : Option (List UInt8)
  output : Option (List UInt8)
  errorOutput : Option (List UInt8)

/-- All files of a case have been read. -/
structure Reads (spec : CaseSpec) (files : Files) (base : String) (contents : Contents) : Prop where
  image : ∃ plain, ImageReads spec files base plain ∧
    LabelsRead spec files base plain contents.image
  input : SourceReads files base spec.input contents.input
  output : SourceReads files base spec.expectedOutput contents.output
  errorOutput : SourceReads files base spec.expectedErrorOutput contents.errorOutput

/-- What is expected of a case. -/
def expectation (spec : CaseSpec) (contents : Contents) : Expectation :=
  ⟨contents.output.getD [], contents.errorOutput, spec.expectedStatus, spec.expectedFault⟩

/-- The case with its files read. -/
def toTestCase (spec : CaseSpec) (manifestBudget : Option Nat) (contents : Contents) :
    TestCase where
  name := spec.name
  image := contents.image
  args := spec.args.map (·.toByteArray.toList)
  input := contents.input.getD []
  expectation := spec.expectation contents
  stepBudget := spec.stepBudget.or manifestBudget
  plan := FailurePlan.ofCalls spec.failWrites spec.failWritesFrom

theorem settles_assemble (spec : CaseSpec) (manifestBudget : Option Nat) (files : Files)
    (base : String) :
    Settles (PartFails spec files base) Part.order
      (fun c => ∃ contents, spec.Reads files base contents ∧
        c = spec.toTestCase manifestBudget contents)
      (spec.assemble manifestBudget files base) := by
  -- one computation for each part, in the order in which they are looked at
  have himage : Settles (PartFails spec files base) [.image, .labels]
      (fun image => ∃ plain, ImageReads spec files base plain ∧
        LabelsRead spec files base plain image)
      ((spec.resolveImage files base).mapError .load) := by
    rw [resolveImage_eq]
    exact (settles_readImage spec files base).bind fun plain _ =>
      settles_readLabels spec files base plain
  have hinput : Settles (PartFails spec files base) [.input] _ _ :=
    settles_resolveSource? spec.input fun e => ⟨fun | .input h => h, .input⟩
  have houtput : Settles (PartFails spec files base) [.output] _ _ :=
    settles_resolveSource? spec.expectedOutput fun e => ⟨fun | .output h => h, .output⟩
  have herrorOutput : Settles (PartFails spec files base) [.errorOutput] _ _ :=
    settles_resolveSource? spec.expectedErrorOutput
      fun e => ⟨fun | .errorOutput h => h, .errorOutput⟩
  refine (himage.bind fun image _ => hinput.bind fun input _ => houtput.bind fun output _ =>
    herrorOutput.bind fun errorOutput _ => settles_pure (spec.toTestCase manifestBudget
      ⟨image, input, output, errorOutput⟩)).congr fun c => ?_
  constructor
  · rintro ⟨⟨image, input, output, errorOutput⟩, hreads, rfl⟩
    exact ⟨image, hreads.image, input, hreads.input, output, hreads.output, errorOutput,
      hreads.errorOutput, rfl⟩
  · rintro ⟨image, himage, input, hinput, output, houtput, errorOutput, herrorOutput, rfl⟩
    exact ⟨_, ⟨himage, hinput, houtput, herrorOutput⟩, rfl⟩

/-! ### Running a case -/

/-- The step budget of a case: its own, else the manifest's, else the configured one. -/
def budget (spec : CaseSpec) (manifestBudget : Option Nat) (s : Settings) : Nat :=
  match spec.stepBudget, manifestBudget with
  | some n, _ => n
  | none, some n => n
  | none, none => s.stepBudget

/-- The failure plan of a case: its own unless that is empty, and then the configured one. -/
def plan (spec : CaseSpec) (s : Settings) : FailurePlan :=
  if spec.failWrites = [] ∧ spec.failWritesFrom = none then
    FailurePlan.ofCalls s.failWrites s.failWritesFrom
  else FailurePlan.ofCalls spec.failWrites spec.failWritesFrom

/-- The run of a case, if its program can be loaded. -/
def runWith (spec : CaseSpec) (manifestBudget : Option Nat) (s : Settings) (contents : Contents) :
    Except RunFailure RunResult :=
  runProgram contents.image (spec.args.map (·.toByteArray.toList)) (contents.input.getD [])
    (spec.plan s) { s with stepBudget := spec.budget manifestBudget s }

/-- The reports that a case can come to: an error for the first part that fails, or else that of the
run. -/
inductive Reports (spec : CaseSpec) (manifestBudget : Option Nat) (files : Files) (base : String)
    (s : Settings) : CaseReport → Prop
  | broken {e : BenchError} (hfails : FirstFails (PartFails spec files base) e Part.order) :
      Reports spec manifestBudget files base s ⟨spec.name, .error e, none⟩
  | unloadable {contents : Contents} {e : LoadError} (hreads : spec.Reads files base contents)
      (hrun : spec.runWith manifestBudget s contents = .error (.load e)) :
      Reports spec manifestBudget files base s ⟨spec.name, .error (.load e), none⟩
  | aborted {contents : Contents} (hreads : spec.Reads files base contents)
      (hrun : spec.runWith manifestBudget s contents = .error .aborted) :
      Reports spec manifestBudget files base s ⟨spec.name, .error .aborted, none⟩
  | judged {contents : Contents} {result : RunResult} (hreads : spec.Reads files base contents)
      (hrun : spec.runWith manifestBudget s contents = .ok result) :
      Reports spec manifestBudget files base s
        ⟨spec.name, (spec.expectation contents).judge result, some result⟩

section Reports

variable {spec : CaseSpec} {manifestBudget : Option Nat} {files : Files} {base : String}
  {s : Settings}

theorem run_toTestCase (contents : Contents) :
    (spec.toTestCase manifestBudget contents).run s =
      match spec.runWith manifestBudget s contents with
      | .ok result => ⟨spec.name, (spec.expectation contents).judge result, some result⟩
      | .error (.load e) => ⟨spec.name, .error (.load e), none⟩
      | .error .aborted => ⟨spec.name, .error .aborted, none⟩ := by
  have hbudget : (spec.toTestCase manifestBudget contents).settings s =
      { s with stepBudget := spec.budget manifestBudget s } := by
    unfold TestCase.settings toTestCase budget
    cases spec.stepBudget <;> cases manifestBudget <;> rfl
  -- a plan that names no call counts as none
  have hplan : (spec.toTestCase manifestBudget contents).effectivePlan s = spec.plan s := by
    have hiff : (spec.toTestCase manifestBudget contents).plan.isEmpty = true ↔
        spec.failWrites = [] ∧ spec.failWritesFrom = none := FailurePlan.isEmpty_ofCalls
    unfold TestCase.effectivePlan plan
    by_cases hempty : spec.failWrites = [] ∧ spec.failWritesFrom = none
    · rw [if_pos hempty, if_pos (hiff.mpr hempty)]
      rfl
    · rw [if_neg hempty, if_neg (mt hiff.mp hempty)]
      rfl
  unfold TestCase.run
  rw [hbudget, hplan]
  rfl

theorem run_resolve_eq_iff {r : CaseReport} :
    (spec.resolve manifestBudget files base).run s = r ↔
      Reports spec manifestBudget files base s r := by
  have hsettles := settles_assemble spec manifestBudget files base
  constructor
  · rintro rfl
    unfold resolve
    cases hassemble : spec.assemble manifestBudget files base with
    | error e => exact .broken (hsettles.error_iff.mp hassemble)
    | ok c =>
      obtain ⟨contents, hreads, rfl⟩ := hsettles.ok_iff.mp hassemble
      show Reports _ _ _ _ _ ((spec.toTestCase manifestBudget contents).run s)
      rw [run_toTestCase]
      cases hrun : spec.runWith manifestBudget s contents with
      | ok result => exact .judged hreads hrun
      | error failure =>
        cases failure with
        | load e => exact .unloadable hreads hrun
        | aborted => exact .aborted hreads hrun
  · intro h
    unfold resolve
    cases h with
    | broken hfails =>
      rw [hsettles.error _ hfails]
      rfl
    | unloadable hreads hrun =>
      rw [hsettles.ok _ ⟨_, hreads, rfl⟩]
      show (spec.toTestCase manifestBudget _).run s = _
      rw [run_toTestCase, hrun]
    | aborted hreads hrun =>
      rw [hsettles.ok _ ⟨_, hreads, rfl⟩]
      show (spec.toTestCase manifestBudget _).run s = _
      rw [run_toTestCase, hrun]
    | judged hreads hrun =>
      rw [hsettles.ok _ ⟨_, hreads, rfl⟩]
      show (spec.toTestCase manifestBudget _).run s = _
      rw [run_toTestCase, hrun]

end Reports

theorem fails_plan {spec : CaseSpec} {s : Settings} {call : Nat} :
    (spec.plan s).fails call = true ↔
      if spec.failWrites = [] ∧ spec.failWritesFrom = none then
        call ∈ s.failWrites ∨ ∃ first, s.failWritesFrom = some first ∧ first ≤ call
      else call ∈ spec.failWrites ∨ ∃ first, spec.failWritesFrom = some first ∧ first ≤ call := by
  unfold plan
  split
  · exact FailurePlan.fails_ofCalls
  · exact FailurePlan.fails_ofCalls

/-! ### The files of a case -/

section Agree

variable {spec : CaseSpec} {files files' : Files} {base : String}

theorem resolveSource?_congr {source : Option ByteSource}
    (h : ∀ path, source = some (.file path) →
      files'.read (Path.join base path) = files.read (Path.join base path)) :
    resolveSource? source files' base = resolveSource? source files base := by
  rcases source with - | (s | path)
  · rfl
  · rfl
  · unfold resolveSource? ByteSource.resolve Files.contents
    simp only [h path rfl]

theorem resolveImage_congr
    (himage : files'.read (Path.join base spec.image) = files.read (Path.join base spec.image))
    (hlabels : ∀ path, spec.labels = some path →
      files'.read (Path.join base path) = files.read (Path.join base path)) :
    spec.resolveImage files' base = spec.resolveImage files base := by
  have hload :
      files'.load (Path.join base spec.image) = files.load (Path.join base spec.image) := by
    rw [Files.load, Files.load, himage]
  unfold resolveImage
  rw [hload]
  cases h : spec.labels with
  | none => rfl
  | some path =>
    have htext : files'.loadText (Path.join base path) = files.loadText (Path.join base path) := by
      rw [Files.loadText, Files.loadText, Files.readText, Files.readText, hlabels path h]
    simp only [htext]

/-- A case depends on no other files than those it names. -/
theorem resolve_congr (h : ∀ path ∈ spec.paths,
      files'.read (Path.join base path) = files.read (Path.join base path))
    (manifestBudget : Option Nat) :
    spec.resolve manifestBudget files' base = spec.resolve manifestBudget files base := by
  have himage := h spec.image (List.mem_cons_self ..)
  have hlabels : ∀ path, spec.labels = some path →
      files'.read (Path.join base path) = files.read (Path.join base path) := by
    intro path hpath
    refine h path (List.mem_cons_of_mem _ (List.mem_append_left _ ?_))
    rw [hpath]
    exact List.mem_singleton_self path
  have hsource : ∀ source ∈ [spec.input, spec.expectedOutput, spec.expectedErrorOutput],
      resolveSource? source files' base = resolveSource? source files base := by
    intro source hsource
    refine resolveSource?_congr fun path hpath => ?_
    refine h path (List.mem_cons_of_mem _ (List.mem_append_right _ ?_))
    refine List.mem_filterMap.mpr ⟨source, hsource, ?_⟩
    rw [hpath]
    rfl
  unfold resolve assemble
  rw [resolveImage_congr himage hlabels, hsource spec.input (by simp),
    hsource spec.expectedOutput (by simp), hsource spec.expectedErrorOutput (by simp)]

end Agree

end CaseSpec

/-! ### Manifests -/

namespace Manifest

/-- How a manifest, its files and the settings come together in a suite. -/
structure Layered (m : Manifest) (files : Files) (base : String) (s : Settings) : Prop where
  -- one case for each written, and what is reported of it
  names_eq : (m.resolve files base).map SuiteCase.name = m.cases.map CaseSpec.name
  report_iff : ∀ (i : Nat) (spec : CaseSpec), m.cases[i]? = some spec → ∀ r,
    (runSuite (m.resolve files base) s).cases[i]? = some r ↔
      spec.Reports m.stepBudget files base s r
  -- either of the two plans counts, and never both
  fails_iff : ∀ spec ∈ m.cases, ∀ call, (spec.plan s).fails call = true ↔
    if spec.failWrites = [] ∧ spec.failWritesFrom = none then
      call ∈ s.failWrites ∨ ∃ first, s.failWritesFrom = some first ∧ first ≤ call
    else call ∈ spec.failWrites ∨ ∃ first, spec.failWritesFrom = some first ∧ first ≤ call
  -- standard error counts if something is expected of it
  stderr_ignored : ∀ spec ∈ m.cases, ∀ contents, spec.Reads files base contents →
    spec.expectedErrorOutput = none → ∀ r r' : RunResult, r.outcome = r'.outcome →
      r.transcript.stdout = r'.transcript.stdout →
        (spec.expectation contents).judge r = (spec.expectation contents).judge r'
  stderr_judged : ∀ spec ∈ m.cases, ∀ contents, spec.Reads files base contents →
    ∀ source, spec.expectedErrorOutput = some source →
      ∃ expected, CaseSpec.SourceReads files base (some source) (some expected) ∧
        ∀ r, (spec.expectation contents).JudgesStderr expected r
  -- other cases and their files may be anything
  isolated : ∀ (m' : Manifest) (files' : Files) (i j : Nat) (spec : CaseSpec),
    m'.stepBudget = m.stepBudget → m.cases[i]? = some spec → m'.cases[j]? = some spec →
      (∀ path ∈ spec.paths,
        files'.read (Path.join base path) = files.read (Path.join base path)) →
        (runSuite (m'.resolve files' base) s).cases[j]? =
          (runSuite (m.resolve files base) s).cases[i]?

theorem report_eq {m : Manifest} {i : Nat} {spec : CaseSpec} (h : m.cases[i]? = some spec)
    (files : Files) (base : String) (s : Settings) :
    (runSuite (m.resolve files base) s).cases[i]? =
      some ((spec.resolve m.stepBudget files base).run s) := by
  rw [runSuite, resolve, List.getElem?_map, List.getElem?_map, h]
  rfl

theorem name_resolve (spec : CaseSpec) (manifestBudget : Option Nat) (files : Files)
    (base : String) : (spec.resolve manifestBudget files base).name = spec.name := by
  have hsettles := CaseSpec.settles_assemble spec manifestBudget files base
  unfold CaseSpec.resolve
  cases hassemble : spec.assemble manifestBudget files base with
  | error e => rfl
  | ok c =>
    obtain ⟨contents, -, rfl⟩ := hsettles.ok_iff.mp hassemble
    rfl

/-- **A manifest as a suite.** Every case is there under its name and in its place, and comes to a
report that only its own files, the manifest's budget and the settings decide. -/
theorem layered (m : Manifest) (files : Files) (base : String) (s : Settings) :
    m.Layered files base s where
  names_eq := by
    rw [resolve, List.map_map]
    exact List.map_congr_left fun spec _ => name_resolve spec m.stepBudget files base
  report_iff i spec hspec r := by
    rw [report_eq hspec, Option.some.injEq]
    exact CaseSpec.run_resolve_eq_iff
  fails_iff _ _ _ := CaseSpec.fails_plan
  stderr_ignored spec _ contents hreads hnone r r' houtcome hstdout := by
    have herror := hreads.errorOutput
    rw [hnone] at herror
    exact Expectation.judge_congr herror.eq_none houtcome hstdout
  stderr_judged spec _ contents hreads source hsource := by
    have herror := hreads.errorOutput
    rw [hsource] at herror
    obtain ⟨expected, hexpected⟩ := herror.exists_eq_some
    rw [hexpected] at herror
    exact ⟨expected, herror, Expectation.judgesStderr hexpected⟩
  isolated m' files' i j spec hbudget hi hj hfiles := by
    rw [report_eq hi, report_eq hj, hbudget, CaseSpec.resolve_congr hfiles]

end Manifest

end Bench65
