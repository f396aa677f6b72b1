import TextVectors.Files

/-!
# Halts between operations

A machine may halt at any time. Then some of the operations that it was to do on
its files are done and the others are not; a file that was being filled may hold a
part of its content. What is true `Throughout` some operations is true however
they are halted. Operations in a row can be looked at one by one,
`Throughout.append`.
-/

namespace TextVectors

namespace Files

/-- How files may be left when some operations are done and the others are not. -/
inductive Halted (files : Files) : List Operation → List Operation → Files → Prop where
  | between (done rest : List Operation) : Halted files done rest (files.applyAll done)
  | filling (done rest : List Operation) (place : Place) {part content : List UInt8}
      (begun : part <+: content) :
      Halted files done (.fill place content :: rest)
        ((files.applyAll done).apply (.fill place part))

/-- Something is true of files however some operations on them are halted. -/
def Throughout (holds : Files → Prop) (files : Files) (operations : List Operation) : Prop :=
  ∀ done rest state, done ++ rest = operations → Halted files done rest state → holds state

variable {files state : Files} {holds weaker : Files → Prop}
  {done rest first second : List Operation}

theorem applyAll_append (files : Files) (first second : List Operation) :
    files.applyAll (first ++ second) = (files.applyAll first).applyAll second :=
  List.foldl_append

/-- Operations in a row are halted in the first ones or in the later ones. -/
theorem Halted.cases_append (halted : Halted files done rest state)
    (split : done ++ rest = first ++ second) :
    (∃ left, done ++ left = first ∧ Halted files done left state) ∨
      ∃ more, done = first ++ more ∧ more ++ rest = second ∧
        Halted (files.applyAll first) more rest state := by
  rcases List.append_eq_append_iff.mp split with ⟨left, whole, behind⟩ | ⟨more, whole, behind⟩
  · cases left with
    | nil =>
        right
        rw [List.append_nil] at whole
        rw [List.nil_append] at behind
        subst whole behind
        refine ⟨[], (List.append_nil _).symm, rfl, ?_⟩
        cases halted with
        | between => exact .between [] rest
        | filling later place begun => exact .filling [] later place begun
    | cons operation left =>
        left
        refine ⟨operation :: left, whole.symm, ?_⟩
        cases halted with
        | between => exact .between done (operation :: left)
        | filling later place begun =>
            rw [List.cons_append, List.cons.injEq] at behind
            rw [← behind.1]
            exact .filling done left place begun
  · right
    subst whole
    refine ⟨more, rfl, behind.symm, ?_⟩
    cases halted with
    | between =>
        rw [applyAll_append]
        exact .between more rest
    | filling later place begun =>
        rw [applyAll_append]
        exact .filling more later place begun

namespace Throughout

theorem mono (implies : ∀ state, holds state → weaker state)
    (throughout : Throughout holds files first) : Throughout weaker files first :=
  fun done rest state whole halted => implies state (throughout done rest state whole halted)

theorem after (throughout : Throughout holds files first) : holds (files.applyAll first) :=
  throughout first [] _ (List.append_nil first) (.between first [])

theorem nil (start : holds files) : Throughout holds files [] := by
  intro done rest state whole halted
  rw [List.append_eq_nil_iff] at whole
  rcases whole with ⟨rfl, rfl⟩
  cases halted
  exact start

theorem append (early : Throughout holds files first)
    (late : Throughout holds (files.applyAll first) second) :
    Throughout holds files (first ++ second) := by
  intro done rest state whole halted
  rcases halted.cases_append whole with ⟨left, inside, stopped⟩ | ⟨more, _, inside, stopped⟩
  · exact early done left state inside stopped
  · exact late more rest state inside stopped

theorem singleton {operation : Operation} (start : holds files)
    (finish : holds (files.apply operation))
    (partly : ∀ place content part, operation = .fill place content → part <+: content →
      holds (files.apply (.fill place part))) : Throughout holds files [operation] := by
  intro done rest state whole halted
  rcases List.append_eq_singleton_iff.mp whole with ⟨rfl, rfl⟩ | ⟨rfl, rfl⟩
  · cases halted with
    | between => exact start
    | filling later place begun => exact partly _ _ _ rfl begun
  · cases halted
    exact finish

theorem cons {operation : Operation} (one : Throughout holds files [operation])
    (others : Throughout holds (files.apply operation) second) :
    Throughout holds files (operation :: second) :=
  one.append others

/-- Renaming is done in one step: before it, things are as they were, and then all is over. -/
theorem append_rename {source target : Place} (early : Throughout holds files first)
    (halted : Halted files done rest state)
    (whole : done ++ rest = first ++ [.rename source target]) :
    holds state ∨ rest = [] ∧ state = files.applyAll (first ++ [.rename source target]) := by
  rcases halted.cases_append whole with ⟨left, inside, stopped⟩ | ⟨more, rfl, inside, stopped⟩
  · exact .inl (early done left state inside stopped)
  · rcases List.append_eq_singleton_iff.mp inside with ⟨rfl, rfl⟩ | ⟨rfl, rfl⟩
    · cases stopped
      exact .inl early.after
    · cases stopped
      rw [applyAll_append]
      exact .inr ⟨rfl, rfl⟩

end Throughout

end Files

end TextVectors
