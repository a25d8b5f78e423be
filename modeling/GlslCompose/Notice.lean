/-
`Notice.lean` -- what the library reports while it works, and results that come
with reports.

Reports are data here: a step returns the notices it gave, in order, next to its
result, and whoever runs it decides where they go. A step also returns the state
it leaves behind, whether it succeeded or not, since a step that fails may have
changed part of what it works on.
-/
import GlslCompose.Fault

set_option autoImplicit false

namespace GlslCompose

/-! ## Notices -/

/-- Where fragments that are registered all at once come from. -/
inductive FragmentOrigin where
  /-- A map handed in. -/
  | given
  /-- The files below a directory. -/
  | directory
  /-- The bundled files. -/
  | bundle
  deriving DecidableEq, Repr

/-- What an origin is called in the log. -/
def FragmentOrigin.name : FragmentOrigin → Text
  | given => "DictLoader"
  | directory => "FileSystemLoader"
  | bundle => "PackageLoader"

/-- Something worth reporting. -/
inductive Notice where
  /-- A fragment is spliced into a file. -/
  | including (path : Text) (file : FileName)
  /-- Fragments were registered all at once. -/
  | loaded (count : Nat) (origin : FragmentOrigin)
  /-- A text was compiled, and so many are cached now. -/
  | compiled (name : FileName) (cached : Nat)
  /-- A compiled text came from the cache. -/
  | reused (name : FileName)
  /-- A shader, whose name is quoted, was compiled anew, for these reasons. -/
  | updated (shader : Text) (reasons : List Text)
  /-- A shader, whose name is quoted, went back to texts it had compiled before. -/
  | swapped (shader : Text) (slots : List Text)
  /-- The level asked for is none. -/
  | badLevel (level : Text)
  /-- The numbered source of a shader that failed. It is printed and not logged. -/
  | listing (content : Text)
  deriving DecidableEq, Repr

/-- How much a notice matters. -/
inductive Severity where
  | debug
  | info
  | warning
  deriving DecidableEq, Repr

namespace Severity

/-- The name of a severity. -/
def name : Severity → Text
  | debug => "DEBUG"
  | info => "INFO"
  | warning => "WARNING"

end Severity

namespace Notice

/-- How a shader is named in the log, where its name is quoted already. -/
def shaderText (name : Text) : Text := "<ShaderInstance " ++ name ++ ">"

/-- What a notice says in the log, and how much it matters. -/
def logged? : Notice → Option (Severity × Text)
  | including path file =>
    some (.debug, "Including " ++ Text.quoted path ++ " in " ++ file.shown ++ ".")
  | loaded count origin =>
    some (.debug, "Loaded " ++ Text.ofNat count ++ " glsl fragments from " ++ origin.name ++ ".")
  | compiled name cached =>
    some (.debug, "Compiled " ++ name.shown ++ " (" ++ Text.ofNat cached ++ " cached).")
  | reused name => some (.debug, "Compiled " ++ name.shown ++ " from cache.")
  | updated shader reasons =>
    some (.info, shaderText shader ++ " shader update: " ++ List.intercalate ", " reasons ++ ".")
  | swapped shader slots =>
    some (.debug, shaderText shader ++ " swapped to memoized " ++ List.intercalate ", " slots ++ ".")
  | badLevel level => some (.warning, "Invalid shaderlib log level: " ++ level)
  | listing _ => none

/-- The line that a notice leaves in the log. -/
def logLine? (notice : Notice) : Option Text :=
  notice.logged?.map fun (severity, said) => severity.name ++ " " ++ said

/-- What a notice prints beside the log. -/
def printed : Notice → Text
  | listing content => content
  | _ => []

end Notice

/-! ## Results with notices -/

/-- A result, and the notices given on the way to it. -/
structure Logged (α : Type) where
  result : Except Fault α
  notices : List Notice

namespace Logged

variable {α β : Type}

/-- A result without notices. -/
def done (a : α) : Logged α := ⟨.ok a, []⟩

/-- A fault without notices. -/
def failed (fault : Fault) : Logged α := ⟨.error fault, []⟩

/-- A notice before everything else. -/
def note (notice : Notice) (l : Logged α) : Logged α := ⟨l.result, notice :: l.notices⟩

/-- One result after another. A fault ends it, and keeps the notices given so far. -/
def andThen (l : Logged α) (f : α → Logged β) : Logged β :=
  match l.result with
  | .error fault => ⟨.error fault, l.notices⟩
  | .ok a =>
    let next := f a
    ⟨next.result, l.notices ++ next.notices⟩

/-- A result changed by a function. -/
def map (f : α → β) (l : Logged α) : Logged β := ⟨l.result.map f, l.notices⟩

@[simp] theorem result_done (a : α) : (done a).result = .ok a := rfl

@[simp] theorem result_failed (fault : Fault) : (failed fault : Logged α).result = .error fault := rfl

@[simp] theorem result_note (notice : Notice) (l : Logged α) : (l.note notice).result = l.result :=
  rfl

/-- The result of one thing after another does not depend on the notices. -/
@[simp] theorem result_andThen (l : Logged α) (f : α → Logged β) :
    (l.andThen f).result = l.result.bind fun a => (f a).result := by
  unfold andThen
  cases l.result <;> rfl

@[simp] theorem result_map (f : α → β) (l : Logged α) : (l.map f).result = l.result.map f := rfl

/-- After a result the notices of both stand one after the other. -/
theorem notices_andThen_of_ok {l : Logged α} {f : α → Logged β} {a : α} (h : l.result = .ok a) :
    (l.andThen f).notices = l.notices ++ (f a).notices := by
  simp only [andThen, h]

/-- After a fault nothing more is noticed. -/
theorem notices_andThen_of_error {l : Logged α} {f : α → Logged β} {fault : Fault}
    (h : l.result = .error fault) : (l.andThen f).notices = l.notices := by
  simp only [andThen, h]

end Logged

/-! ## Steps -/

/-- **What a step leaves behind:** its result or fault, the state after it, and its notices. -/
structure Step (σ α : Type) where
  result : Except Fault α
  state : σ
  notices : List Notice

namespace Step

variable {σ τ α β : Type}

/-- A step that succeeds. -/
def done (a : α) (state : σ) : Step σ α := ⟨.ok a, state, []⟩

/-- A step that fails. -/
def failed (fault : Fault) (state : σ) : Step σ α := ⟨.error fault, state, []⟩

/-- A step that ends as already known, without a notice. -/
def ofExcept (result : Except Fault α) (state : σ) : Step σ α := ⟨result, state, []⟩

/-- A notice after everything else. -/
def note (step : Step σ α) (notice : Notice) : Step σ α :=
  { step with notices := step.notices ++ [notice] }

/-- One step after another. A fault ends it, and the state is as the fault left it. -/
def andThen (step : Step σ α) (f : α → σ → Step σ β) : Step σ β :=
  match step.result with
  | .error fault => ⟨.error fault, step.state, step.notices⟩
  | .ok a =>
    let next := f a step.state
    ⟨next.result, next.state, step.notices ++ next.notices⟩

/-- The result of a second step is the one of both. -/
theorem result_andThen_of_ok {step : Step σ α} {f : α → σ → Step σ β} {a : α}
    (h : step.result = .ok a) : (step.andThen f).result = (f a step.state).result := by
  simp only [andThen, h]

/-- A second step goes on from the state that the first one left. -/
theorem state_andThen_of_ok {step : Step σ α} {f : α → σ → Step σ β} {a : α}
    (h : step.result = .ok a) : (step.andThen f).state = (f a step.state).state := by
  simp only [andThen, h]

/-- A fault is handed on. -/
theorem result_andThen_of_error {step : Step σ α} {f : α → σ → Step σ β} {fault : Fault}
    (h : step.result = .error fault) : (step.andThen f).result = .error fault := by
  simp only [andThen, h]

/-- After a fault the state stays as the fault left it. -/
theorem state_andThen_of_error {step : Step σ α} {f : α → σ → Step σ β} {fault : Fault}
    (h : step.result = .error fault) : (step.andThen f).state = step.state := by
  simp only [andThen, h]

/-- A step seen as one on a larger state. -/
def within (step : Step σ α) (put : σ → τ) : Step τ α :=
  ⟨step.result, put step.state, step.notices⟩

/-- A step with another result. -/
def map (f : α → β) (step : Step σ α) : Step σ β :=
  ⟨step.result.map f, step.state, step.notices⟩

/-! ### The parts of a step

What a step leaves behind is read off its two parts that matter, the result and the state. Each
operation has one lemma for each of them, and notices never get into either. -/

@[simp] theorem result_done (a : α) (state : σ) : (done a state).result = .ok a := rfl

@[simp] theorem state_done (a : α) (state : σ) : (done a state).state = state := rfl

@[simp] theorem result_failed (fault : Fault) (state : σ) :
    (failed fault state : Step σ α).result = .error fault := rfl

@[simp] theorem state_failed (fault : Fault) (state : σ) :
    (failed fault state : Step σ α).state = state := rfl

@[simp] theorem result_ofExcept (result : Except Fault α) (state : σ) :
    (ofExcept result state).result = result := rfl

@[simp] theorem state_ofExcept (result : Except Fault α) (state : σ) :
    (ofExcept result state).state = state := rfl

@[simp] theorem result_note (step : Step σ α) (notice : Notice) :
    (step.note notice).result = step.result := rfl

@[simp] theorem state_note (step : Step σ α) (notice : Notice) :
    (step.note notice).state = step.state := rfl

@[simp] theorem result_within (step : Step σ α) (put : σ → τ) :
    (step.within put).result = step.result := rfl

@[simp] theorem state_within (step : Step σ α) (put : σ → τ) :
    (step.within put).state = put step.state := rfl

@[simp] theorem result_map (f : α → β) (step : Step σ α) :
    (step.map f).result = step.result.map f := rfl

@[simp] theorem state_map (f : α → β) (step : Step σ α) : (step.map f).state = step.state := rfl

/-- The result of one step after another, whether the first one fails or not. -/
theorem result_andThen (step : Step σ α) (f : α → σ → Step σ β) :
    (step.andThen f).result = step.result.bind fun a => (f a step.state).result := by
  unfold andThen
  cases step.result <;> rfl

/-- What holds behind a first step, and is kept by whatever comes second, holds behind both. The
second step need not be looked at where the first one fails. -/
theorem state_andThen_of {step : Step σ α} {f : α → σ → Step σ β} {p : σ → Prop}
    (hfirst : p step.state) (hsecond : ∀ a, step.result = .ok a → p (f a step.state).state) :
    p (step.andThen f).state := by
  cases h : step.result with
  | error fault => rw [state_andThen_of_error h]; exact hfirst
  | ok a => rw [state_andThen_of_ok h]; exact hsecond a h

/-- What comes second does not depend on the notices of what came first. -/
theorem andThen_congr {step other : Step σ α} (f : α → σ → Step σ β)
    (hresult : step.result = other.result) (hstate : step.state = other.state) :
    (step.andThen f).result = (other.andThen f).result ∧
      (step.andThen f).state = (other.andThen f).state := by
  simp only [andThen, hresult, hstate]
  cases other.result <;> exact ⟨rfl, rfl⟩

/-- A step that only adds a notice behind another one is as good as none. -/
theorem andThen_done_note (step : Step σ Unit) (notice : Notice) :
    (step.andThen fun _ state => (done () state).note notice).result = step.result ∧
      (step.andThen fun _ state => (done () state).note notice).state = step.state := by
  unfold andThen
  cases h : step.result with
  | error fault => exact ⟨rfl, rfl⟩
  | ok done => exact ⟨rfl, rfl⟩

end Step

end GlslCompose
