import Allegiance.Host.FileSystem

namespace Allegiance

def Machine.blank : Machine where
  files := .emptyAt []
  journal := #[]
  clock := ⟨⟨2024, 6, 1, by decide⟩, 0, 0, 0, by decide, by decide, by decide⟩

theorem exists_of_isOk {α ε : Type} {x : Except ε α} (h : x.isOk = true) : ∃ a, x = .ok a := by
  cases x with
  | error e => cases h
  | ok a => exact ⟨a, rfl⟩

theorem run_lift_bind {α β ε : Type} (work : StateM Machine α)
    (next : α → ExceptT ε (StateM Machine) β) (machine : Machine) :
    (liftM work >>= next).run.run machine =
      (next (work.run machine).1).run.run (work.run machine).2 := rfl

theorem run_bind_of_ok {α β ε : Type} {work : ExceptT ε (StateM Machine) α}
    {next : α → ExceptT ε (StateM Machine) β} {machine between : Machine} {x : α}
    (h : work.run.run machine = (.ok x, between)) :
    (work >>= next).run.run machine = (next x).run.run between := by
  have hbind : (work >>= next).run.run machine =
      (ExceptT.bindCont next (work.run.run machine).1).run (work.run.run machine).2 := rfl
  rw [hbind, h]
  rfl

theorem run_bind_of_error {α β ε : Type} {work : ExceptT ε (StateM Machine) α}
    {next : α → ExceptT ε (StateM Machine) β} {machine between : Machine} {e : ε}
    (h : work.run.run machine = (.error e, between)) :
    (work >>= next).run.run machine = (.error e, between) := by
  have hbind : (work >>= next).run.run machine =
      (ExceptT.bindCont next (work.run.run machine).1).run (work.run.run machine).2 := rfl
  rw [hbind, h]
  rfl

/-- Work that comes to a result told by files and clock alone, and changes neither. At most it notes
something. -/
def OnlyLooks {α : Type} (work : StateM Machine α) (result : FileSystem → Instant → α) : Prop :=
  ∀ machine : Machine, ∃ journal,
    work.run machine = (result machine.files machine.clock, { machine with journal })

namespace OnlyLooks

variable {α β ε : Type}

theorem pure (x : α) : OnlyLooks (Pure.pure x) (fun _ _ => x) := fun machine =>
  ⟨machine.journal, rfl⟩

theorem bind {work : StateM Machine α} {next : α → StateM Machine β}
    {f : FileSystem → Instant → α} {g : α → FileSystem → Instant → β}
    (hwork : OnlyLooks work f) (hnext : ∀ x, OnlyLooks (next x) (g x)) :
    OnlyLooks (work >>= next) (fun files clock => g (f files clock) files clock) := by
  intro machine
  obtain ⟨journal, hw⟩ := hwork machine
  obtain ⟨journal', hn⟩ := hnext (f machine.files machine.clock) { machine with journal }
  exact ⟨journal', by rw [StateT.run_bind, hw]; exact hn⟩

theorem note (e : Event) : OnlyLooks (Host.note e) (fun _ _ => ()) := fun machine =>
  ⟨machine.journal.push e, rfl⟩

theorem now : OnlyLooks Host.now (fun _ clock => clock) := fun machine => ⟨machine.journal, rfl⟩

theorem readFile (path : String) :
    OnlyLooks (Host.readFile path) (fun files _ => files.read path) := fun machine =>
  ⟨machine.journal, rfl⟩

theorem pathExists (path : String) :
    OnlyLooks (Host.pathExists path) (fun files _ => files.pathExists path) := fun machine =>
  ⟨machine.journal, rfl⟩

theorem noteAll (events : List Event) :
    OnlyLooks (forIn events PUnit.unit fun e _ => do Host.note e; Pure.pure (.yield PUnit.unit))
      (fun _ _ => PUnit.unit) := by
  induction events with
  | nil => exact pure _
  | cons e events ih =>
    rw [List.forIn_cons, bind_assoc]
    exact (note e).bind (fun _ => ih)

theorem result {work : StateM Machine α} {f : FileSystem → Instant → α} (h : OnlyLooks work f)
    (machine : Machine) : (work.run machine).1 = f machine.files machine.clock := by
  obtain ⟨journal, hwork⟩ := h machine
  rw [hwork]

theorem of_eq {work : StateM Machine α} {f g : FileSystem → Instant → α} (h : OnlyLooks work f)
    (hfg : ∀ files clock, f files clock = g files clock) : OnlyLooks work g := by
  intro machine
  rw [← hfg]
  exact h machine

theorem lift {work : StateM Machine α} {f : FileSystem → Instant → α} (h : OnlyLooks work f) :
    OnlyLooks (ExceptT.lift work : ExceptT ε (StateM Machine) α).run
      (fun files clock => .ok (f files clock)) := by
  intro machine
  obtain ⟨journal, hw⟩ := h machine
  refine ⟨journal, ?_⟩
  rw [ExceptT.run_lift, StateT.run_map, hw]
  rfl

theorem ok (x : α) :
    OnlyLooks (Pure.pure x : ExceptT ε (StateM Machine) α).run (fun _ _ => .ok x) := pure _

theorem ofExcept (x : Except ε α) :
    OnlyLooks (liftM x : ExceptT ε (StateM Machine) α).run (fun _ _ => x) := pure _

theorem throw (e : ε) :
    OnlyLooks (MonadExcept.throw e : ExceptT ε (StateM Machine) α).run (fun _ _ => .error e) :=
  pure _

theorem bindExcept {work : ExceptT ε (StateM Machine) α} {next : α → ExceptT ε (StateM Machine) β}
    {f : FileSystem → Instant → Except ε α} {g : α → FileSystem → Instant → Except ε β}
    (hwork : OnlyLooks work.run f) (hnext : ∀ x, OnlyLooks (next x).run (g x)) :
    OnlyLooks (work >>= next).run
      (fun files clock => f files clock >>= fun x => g x files clock) := by
  have hcont : ∀ r, OnlyLooks (ExceptT.bindCont next r)
      (fun files clock => r >>= fun x => g x files clock) := by
    intro r
    cases r with
    | error e => exact pure _
    | ok x => exact hnext x
  exact hwork.bind hcont

section Run

variable {work : ExceptT ε (StateM Machine) α} {next : α → ExceptT ε (StateM Machine) β}
  {f : FileSystem → Instant → Except ε α} {machine : Machine}

theorem run_bind_error {e : ε} (h : OnlyLooks work.run f)
    (hf : f machine.files machine.clock = .error e) :
    ∃ journal, (work >>= next).run.run machine = (.error e, { machine with journal }) := by
  obtain ⟨journal, hwork⟩ := h machine
  rw [hf] at hwork
  exact ⟨journal, run_bind_of_error hwork⟩

theorem run_bind_ok {x : α} (h : OnlyLooks work.run f)
    (hf : f machine.files machine.clock = .ok x) :
    ∃ journal, (work >>= next).run.run machine = (next x).run.run { machine with journal } := by
  obtain ⟨journal, hwork⟩ := h machine
  rw [hf] at hwork
  exact ⟨journal, run_bind_of_ok hwork⟩

end Run

end OnlyLooks

end Allegiance
