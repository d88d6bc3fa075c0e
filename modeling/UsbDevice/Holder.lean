namespace UsbDevice

/-- A place that holds at most one value. -/
abbrev HolderM (α : Type) := StateM (Option α)

namespace HolderM

variable {α β : Type}

def put (a : α) : HolderM α Unit := StateT.set (some a)

def clear : HolderM α Unit := StateT.set none

def get? : HolderM α (Option α) := StateT.get

/-- The value, which leaves the place. -/
def take : HolderM α (Option α) := fun held => (held, none)

/-- Runs `f` on the value, if there is one. `f` may itself change what the place holds. -/
def onValue (f : α → HolderM α β) : HolderM α (Option β) := fun held =>
  match held with
  | some a => let (b, after) := f a held; (some b, after)
  | none => (none, none)

/-! What is put is what is found, and what is taken is gone. -/

theorem put_get? (a : α) : (do put a; get?) = (do put a; return some a) := rfl

theorem put_take (a : α) : (do put a; take) = (do clear; return some a) := rfl

theorem put_put (a b : α) : (do put a; put b) = put b := rfl

theorem clear_get? : (do clear; get?) = (do clear; return none : HolderM α (Option α)) := rfl

theorem take_eq : take = (do let held ← get?; clear; return held : HolderM α (Option α)) := rfl

/-- A function that leaves the place alone is applied to what it holds. -/
theorem onValue_pure (f : α → β) : onValue (fun a => pure (f a)) = (do return (← get?).map f) := by
  funext held
  cases held <;> rfl

/-- An empty place runs nothing. -/
theorem clear_onValue (f : α → HolderM α β) : (do clear; onValue f) = (do clear; return none) := rfl

end HolderM

/-- What can be asked of a place that holds a number. -/
inductive HolderAction
  | put (value : Int64)
  | clear
  | get
  | take
  | isSome
  | isNone
  /-- Adds `amount` to the value. Before that the place is emptied, or given the value `replacement`. -/
  | add (amount : Int64) (replacement : Option (Option Int64))

inductive HolderAnswer
  | done
  | value (held : Option Int64)
  | test (holds : Bool)
deriving DecidableEq

namespace HolderAction

def act : HolderAction → HolderM Int64 HolderAnswer
  | put value => do HolderM.put value; return .done
  | clear => do HolderM.clear; return .done
  | get => return .value (← HolderM.get?)
  | take => return .value (← HolderM.take)
  | isSome => return .test (← HolderM.get?).isSome
  | isNone => return .test (← HolderM.get?).isNone
  | add amount replacement => do
    let sum ← HolderM.onValue fun value => do
      match replacement with
      | none => pure ()
      | some none => HolderM.clear
      | some (some other) => HolderM.put other
      return value + amount
    return .value sum

/-- The answer of each action, and what the place holds after it. -/
def run : List HolderAction → Option Int64 → List (HolderAnswer × Option Int64)
  | [], _ => []
  | a :: as, held =>
    let (answer, held) := a.act held
    (answer, held) :: run as held

/-- The values that the action can leave in the place. -/
def puts : HolderAction → List Int64
  | put value => [value]
  | add _ (some (some other)) => [other]
  | _ => []

theorem held_of_act {a : HolderAction} {held : Option Int64} {value : Int64}
    (holds : (a.act held).2 = some value) : held = some value ∨ value ∈ a.puts := by
  cases a with
  | put other => exact Or.inr (List.mem_singleton.mpr (Option.some.inj holds).symm)
  | clear => cases holds
  | take => cases holds
  | get => exact Or.inl holds
  | isSome => exact Or.inl holds
  | isNone => exact Or.inl holds
  | add amount replacement =>
    cases held with
    | none => cases holds
    | some held =>
      rcases replacement with - | - | other
      · exact Or.inl holds
      · cases holds
      · exact Or.inr (List.mem_singleton.mpr (Option.some.inj holds).symm)

/-- What the place holds has been there from the beginning or has been put there. An empty place stays empty until
something is put. -/
theorem held_of_run {as : List HolderAction} {held : Option Int64} {answer : HolderAnswer} {value : Int64}
    (member : (answer, some value) ∈ run as held) : held = some value ∨ ∃ a ∈ as, value ∈ a.puts := by
  induction as generalizing held with
  | nil => cases member
  | cons a as ih =>
    have here (holds : (a.act held).2 = some value) : held = some value ∨ ∃ b ∈ a :: as, value ∈ b.puts :=
      (held_of_act holds).imp_right fun put => ⟨a, List.mem_cons_self, put⟩
    rcases List.mem_cons.mp member with same | later
    · exact here (congrArg Prod.snd same).symm
    · rcases ih later with holds | ⟨b, among, put⟩
      · exact here holds
      · exact Or.inr ⟨b, List.mem_cons_of_mem a among, put⟩

end HolderAction

end UsbDevice
