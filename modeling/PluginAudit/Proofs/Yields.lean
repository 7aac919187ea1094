import PluginAudit.Audit

namespace PluginAudit

def Note.violation? : Note → Option Violation
  | .violation v => some v
  | .event _ => none

/-- The file that a note closes, with the number of violations that it tells. -/
def Note.closing? : Note → Option (String × Nat)
  | .event (.fileDone file issues) => some (file, issues)
  | _ => none

/-- How far an audit has come that goes on to tell some notes. -/
def Progress.after (p : Progress) (notes : List Note) : Progress :=
  ⟨p.log ++ (notes.filterMap Note.violation?).toArray, p.told ++ notes.toArray⟩

namespace Progress

@[simp] theorem after_nil (p : Progress) : p.after [] = p := by
  simp [after]

@[simp] theorem after_after (p : Progress) (ns ms : List Note) :
    (p.after ns).after ms = p.after (ns ++ ms) := by
  simp [after]

theorem after_log_size (p : Progress) (ns : List Note) :
    (p.after ns).log.size = p.log.size + (ns.filterMap Note.violation?).length := by
  simp [after]

end Progress

namespace Run

variable {α β : Type} {m : Run α} {f : α → Run β} {x : α} {r : Except Fault β} {e : Fault}
  {rows rows' : List Violation} {closed closed' : List (String × Nat)}

/-- The end of a run that goes on from where an audit has come to. -/
def resume (m : Run α) (sink : Sink) (p : Progress) : Except Fault α × Progress :=
  ((m.run sink).run).run p

theorem resume_bind (m : Run α) (f : α → Run β) (sink : Sink) (p : Progress) :
    (m >>= f).resume sink p = match m.resume sink p with
      | (.ok x, q) => (f x).resume sink q
      | (.error e, q) => (.error e, q) := by
  unfold resume ReaderT.run ExceptT.run StateT.run
  simp only [bind, ReaderT.bind, ExceptT.bind, ExceptT.mk, StateT.bind, ExceptT.bindCont]
  cases m sink p with
  | mk result q => cases result <;> rfl

@[simp] theorem resume_get (sink : Sink) (p : Progress) :
    (get : Run Progress).resume sink p = (.ok p, p) := rfl

@[simp] theorem resume_read (sink : Sink) (p : Progress) :
    (read : Run Sink).resume sink p = (.ok sink, p) := rfl

@[simp] theorem resume_modify (g : Progress → Progress) (sink : Sink) (p : Progress) :
    (modify g : Run PUnit).resume sink p = (.ok ⟨⟩, g p) := rfl

@[simp] theorem resume_pure (x : α) (sink : Sink) (p : Progress) :
    (pure x : Run α).resume sink p = (.ok x, p) := rfl

/-- What a part of an audit yields: its end, the violations that it finds, and the files that it
closes. It is the same whoever listens and however far the audit has come. -/
def Yields (m : Run α) (outcome : Except Fault α) (rows : List Violation)
    (closed : List (String × Nat)) : Prop :=
  ∃ notes : List Note, notes.filterMap Note.violation? = rows ∧
    notes.filterMap Note.closing? = closed ∧
    ∀ sink p, m.resume sink p = (outcome, p.after notes)

theorem yields_pure (x : α) : Yields (pure x) (.ok x) [] [] :=
  ⟨[], rfl, rfl, fun _ p => by rw [p.after_nil, resume_pure]⟩

theorem Yields.bind (hm : Yields m (.ok x) rows closed) (hf : Yields (f x) r rows' closed') :
    Yields (m >>= f) r (rows ++ rows') (closed ++ closed') := by
  obtain ⟨ns, rfl, rfl, hm⟩ := hm
  obtain ⟨ms, rfl, rfl, hf⟩ := hf
  refine ⟨ns ++ ms, List.filterMap_append .., List.filterMap_append .., fun sink p => ?_⟩
  rw [resume_bind, hm]
  exact (hf sink _).trans (by rw [p.after_after])

theorem Yields.bind_error (hm : Yields m (.error e) rows closed) :
    Yields (m >>= f) (.error e) rows closed := by
  obtain ⟨ns, hrows, hclosed, hm⟩ := hm
  refine ⟨ns, hrows, hclosed, fun sink p => ?_⟩
  rw [resume_bind, hm]

@[simp] theorem resume_orFault (r : Except Fault α) (sink : Sink) (p : Progress) :
    (orFault r).resume sink p = (r, p) := by
  cases r <;> rfl

theorem yields_orFault (r : Except Fault α) : Yields (orFault r) r [] [] :=
  ⟨[], rfl, rfl, fun _ p => by rw [p.after_nil, resume_orFault]⟩

theorem resume_hear (n : Note) (sink : Sink) (p : Progress) :
    (hear n).resume sink p =
      ((sink p.told n).elim (.ok ()) .error, { p with told := p.told.push n }) := by
  simp only [hear, resume_bind, resume_read, resume_get, resume_modify]
  cases sink p.told n <;> rfl

theorem resume_tryCatch (m : Run α) (h : Fault → Run α) (sink : Sink) (p : Progress) :
    (tryCatch m h).resume sink p = match m.resume sink p with
      | (.ok x, q) => (.ok x, q)
      | (.error e, q) => (h e).resume sink q := by
  change ExceptT.tryCatch (m sink) (fun e => h e sink) p = _
  unfold resume ReaderT.run ExceptT.run StateT.run
  simp only [ExceptT.tryCatch, ExceptT.mk, bind, StateT.bind]
  cases m sink p with
  | mk result q => cases result <;> rfl

/-- Whether the sink fails or not, the note is told and the run goes on. -/
theorem resume_tell (n : Note) (sink : Sink) (p : Progress) :
    (tell n).resume sink p = (.ok (), { p with told := p.told.push n }) := by
  rw [tell, resume_tryCatch, resume_hear]
  cases sink p.told n <;> rfl

theorem yields_event (e : Event) :
    Yields (tell (.event e)) (.ok ()) [] (Note.event e).closing?.toList := by
  refine ⟨[.event e], rfl, by cases h : (Note.event e).closing? <;> simp [h], fun sink p => ?_⟩
  rw [resume_tell]
  simp [Progress.after, Note.violation?]

theorem yields_record (v : Violation) : Yields (record v) (.ok ()) [v] [] := by
  refine ⟨[.violation v], rfl, rfl, fun sink p => ?_⟩
  rw [record, resume_bind, resume_modify]
  simp [resume_tell, Progress.after, Note.violation?]

theorem yields_forM {g : β → Run Unit} (rowsOf : β → List Violation)
    (closedOf : β → List (String × Nat)) (xs : List β)
    (h : ∀ x, Yields (g x) (.ok ()) (rowsOf x) (closedOf x)) :
    Yields (xs.forM g) (.ok ()) (xs.flatMap rowsOf) (xs.flatMap closedOf) := by
  induction xs with
  | nil => exact yields_pure ()
  | cons x xs ih => exact (h x).bind ih

theorem yields_recordAll (vs : List Violation) : Yields (recordAll vs) (.ok ()) vs [] := by
  have h := yields_forM (fun v => [v]) (fun _ => []) vs yields_record
  rwa [List.flatMap_singleton', List.flatMap_eq_nil_iff.2 fun _ _ => rfl] at h

theorem Yields.andThen {m : Run Unit} {k : Run β} (hm : Yields m (.ok ()) rows closed)
    (hk : Yields k r rows' closed') :
    Yields (do m; k) r (rows ++ rows') (closed ++ closed') :=
  hm.bind (f := fun _ => k) hk

theorem Yields.returning {m : Run Unit} (hm : Yields m (.ok ()) rows closed) (x : α) :
    Yields (do m; return x) (.ok x) rows closed := by
  have h := hm.andThen (yields_pure x)
  rwa [List.append_nil, List.append_nil] at h

/-- The number of violations is the number of those that the part itself finds. -/
theorem Yields.counting (h : Yields m (.ok x) rows closed) :
    Yields (counting m) (.ok (x, rows.length)) rows closed := by
  obtain ⟨ns, rfl, hclosed, h⟩ := h
  refine ⟨ns, rfl, hclosed, fun sink p => ?_⟩
  simp only [Run.counting, resume_bind, resume_get, resume_pure, h, p.after_log_size,
    Nat.add_sub_cancel_left]

end Run

end PluginAudit
