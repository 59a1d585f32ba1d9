import LineAtlas.Proofs.InPlace.LineProgram
import LineAtlas.Proofs.InPlace.Rejection
import LineAtlas.Proofs.LineProgram.Restart
import LineAtlas.Proofs.SymbolTable

/-!
# The builders of the four dumps

The listing, the symbol table and the debug info in place, in the order in which their parts are changed. A line
of the listing that has no place in it is seen before anything is changed, and so is a line of no known form. So
each of the four builders may leave out a line that it does not understand, and the line program also a statement
that it does not know.
-/

namespace LineAtlas

open Text InPlace

/-! ## The listing -/

namespace Listing

def addInstruction (i : Instruction) : InPlace Listing Bool := do
  let l ← state
  match l.place? with
  | none => return false
  | some (s, e) =>
    update fun l => l.change s e (· ++ [i])
    return true

def applyRelocation (symbol : String) : InPlace Listing Bool := do
  let l ← state
  match l.place? with
  | none => return false
  | some (s, e) =>
    let run := l.currentInstructions
    if run.isEmpty then
      return false
    match relocateLast symbol run with
    | .error f => throw f
    | .ok run =>
      update fun l => l.change s e fun _ => run
      return true

def openEntry (name : String) : InPlace Listing Bool := do
  let l ← state
  match l.current with
  | none => return false
  | some s =>
    update fun l => { l with currentEntry := some name }
    update fun l => { l with code := l.code.change s fun entries => entries.alter name fun run => run.getD [] }
    return true

def openSection (name : String) : InPlace Listing Bool := do
  update fun l => { l with current := some name }
  update fun l => { l with currentEntry := none }
  update fun l => { l with code := l.code.alter name fun entries => entries.getD [] }
  return true

def perform : Line → InPlace Listing Bool
  | .instruction address encoded text => addInstruction ⟨address, encoded, text⟩
  | .relocation symbol => applyRelocation symbol
  | .entry name => openEntry name
  | .header name => openSection name
  | .filler | .banner => return true

def builder : Builder Listing where
  name := "disassembly"
  start := empty
  work line :=
    match Line.ofText? line with
    | none => return false
    | some content => perform content

theorem run_addInstruction (i : Instruction) (k : Desk Listing) : (addInstruction i).run k =
    match k.state.place? with
    | none => .ok false k
    | some (s, e) => .ok true { k with state := k.state.change s e (· ++ [i]) } := by
  rw [addInstruction, EStateM.run_bind, run_state]
  cases hplace : k.state.place? with
  | none => simp only [hplace, EStateM.run_pure]
  | some place => simp only [hplace, EStateM.run_bind, run_update, EStateM.run_pure]

theorem run_applyRelocation (symbol : String) (k : Desk Listing) : (applyRelocation symbol).run k =
    k.after ((k.state.step (.relocation symbol)).map fun next => next.map fun l => (l, [])) := by
  rw [applyRelocation, EStateM.run_bind, run_state, step]
  cases hplace : k.state.place? with
  | none =>
      simp only [hplace, EStateM.run_pure]
      rfl
  | some place =>
      cases hrun : k.state.currentInstructions with
      | nil =>
          simp only [hplace, hrun, List.isEmpty_nil, if_true, EStateM.run_pure]
          rfl
      | cons i run =>
          simp only [hplace, hrun, List.isEmpty_cons, Bool.false_eq_true, if_false]
          cases relocateLast symbol (i :: run) with
          | error f => rfl
          | ok moved =>
              simp only [EStateM.run_bind, run_update, EStateM.run_pure]
              simp [Desk.after, Except.map, bind, Except.bind, pure, Except.pure]

theorem run_perform (content : Line) (k : Desk Listing) : (perform content).run k =
    k.after ((k.state.step content).map fun next => next.map fun l => (l, [])) := by
  cases content with
  | instruction address encoded text =>
      rw [perform, run_addInstruction, step]
      cases k.state.place? with
      | none => rfl
      | some place => simp [Desk.after, Except.map]
  | relocation symbol => exact run_applyRelocation symbol k
  | entry name =>
      rw [perform, openEntry, EStateM.run_bind, run_state, step]
      cases hcurrent : k.state.current with
      | none =>
          simp only [hcurrent, EStateM.run_pure]
          rfl
      | some s =>
          simp only [hcurrent, EStateM.run_bind, run_update, EStateM.run_pure]
          simp [Desk.after, Except.map]
  | header name =>
      simp only [perform, openSection, EStateM.run_bind, run_update, EStateM.run_pure]
      simp [step, Desk.after, Except.map]
  | filler => simp [perform, step, Desk.after, Except.map]
  | banner => simp [perform, step, Desk.after, Except.map]

theorem builder_realizes : builder.Realizes format where
  name := rfl
  start := rfl
  run_work line k := by
    rw [format_readLine, readLine]
    simp only [builder]
    cases Line.ofText? line with
    | none => rfl
    | some content => exact run_perform content k

theorem notices_of_readLine {l l' : Listing} {line : String} {ns : List Notice}
    (hread : format.readLine l line = .ok (some (l', ns))) : ns = [] := by
  rw [format_readLine, readLine] at hread
  cases hline : Line.ofText? line with
  | none =>
      rw [hline] at hread
      cases hread
  | some content =>
      rw [hline] at hread
      rcases hstep : l.step content with f | _ | next <;> simp_all [Except.map]

end Listing

/-! ## The symbol table -/

namespace SymbolTable

def builder : Builder SymbolTable where
  name := "symbol table"
  start := []
  work line :=
    match Row.ofText? line with
    | some r => do
      update fun t => t.add r
      return true
    | none => return isFiller line

theorem builder_realizes : builder.Realizes format where
  name := rfl
  start := rfl
  run_work line k := by
    rw [format_readLine, readLine]
    simp only [builder]
    cases Row.ofText? line with
    | some r =>
        simp only [EStateM.run_bind, run_update, EStateM.run_pure]
        simp [Desk.after]
    | none => cases hfiller : isFiller line <;> simp [Desk.after]

theorem notices_of_readLine {t t' : SymbolTable} {line : String} {ns : List Notice}
    (hread : format.readLine t line = .ok (some (t', ns))) : ns = [] := by
  rw [format_readLine, readLine] at hread
  split at hread
  · cases hread
    rfl
  · cases hfiller : isFiller line <;> simp_all

end SymbolTable

/-! ## The debug info -/

namespace DebugInfo

def openNode (id tag : String) : InPlace DebugInfo Unit := do
  update fun d => { d with tag := tag }
  update fun d => { d with current := some id }
  update fun d => { d with nodes := d.nodes.put id { id } }

def note (line : List Char) : InPlace DebugInfo Unit := do
  let d ← state
  if d.tag = "subprogram" then
    match d.current, attribute? line with
    | some id, some a =>
      let a ← attempt a.read
      update fun d => { d with nodes := d.nodes.change id (·.record a) }
    | _, _ => return ()

def builder : Builder DebugInfo where
  name := "debug info"
  start := empty
  work line := do
    match header? line.toList with
    | some (id, tag) => openNode id tag
    | none => note line.toList
    return true

theorem run_note {line : List Char} (hheader : header? line = none) (k : Desk DebugInfo) :
    (note line).run k = match k.state.step line with
      | .ok d => .ok () { k with state := d }
      | .error f => .error f k := by
  rw [note, EStateM.run_bind, run_state, step, hheader]
  by_cases htag : k.state.tag = "subprogram"
  · simp only [if_pos htag]
    cases hcurrent : k.state.current with
    | none => rfl
    | some id =>
        cases attribute? line with
        | none => rfl
        | some a =>
            simp only [EStateM.run_bind, run_attempt]
            cases a.read with
            | error f => rfl
            | ok b =>
                simp only [run_update, Except.ok_bind, ← hcurrent]
                rfl
  · simp only [if_neg htag, EStateM.run_pure]
    cases k.state.current with
    | none => rfl
    | some id => cases attribute? line <;> rfl

theorem builder_realizes : builder.Realizes format where
  name := rfl
  start := rfl
  run_work line k := by
    change _ = k.after (k.state.readLine line)
    simp only [builder, readLine]
    cases hheader : header? line.toList with
    | none =>
        simp only [EStateM.run_bind, run_note hheader]
        cases k.state.step line.toList with
        | error f => rfl
        | ok d => simp only [EStateM.run_pure, Except.map, Desk.after, List.append_nil]
    | some node =>
        simp only [openNode, step, hheader, EStateM.run_bind, run_update, EStateM.run_pure, Except.map,
          Desk.after, List.append_nil]

theorem notices_of_readLine {d d' : DebugInfo} {line : String} {ns : List Notice}
    (hread : format.readLine d line = .ok (some (d', ns))) : ns = [] := by
  obtain ⟨_, -, heq⟩ := Except.map_eq_ok_iff.1 hread
  cases heq
  rfl

end DebugInfo

/-! ## The line program -/

namespace LineProgram

theorem words_of_executionNotices {p : LineProgram} {s : Statement Nat} {n : Notice}
    (hn : n ∈ p.executionNotices s) : n.text.toList[0]? = some 'U' → n.text.toList[13]? = some 'p' := by
  cases s with
  | setFile index written =>
      rw [executionNotices] at hn
      split at hn
      · cases hn
      · obtain rfl := List.mem_singleton.1 hn
        simp
  | endSequence =>
      obtain rfl := List.mem_singleton.1 hn
      simp
  | _ => cases hn

/-- A notice of a step begins in other words than the one for a line that is not understood. -/
theorem words_of_step {p q : LineProgram} {content : Line} {ns : List Notice}
    (hstep : p.step content = .ok (q, ns)) {n : Notice} (hn : n ∈ ns) :
    n.text.toList[0]? = some 'U' → n.text.toList[13]? = some 'p' := by
  cases content with
  | statement text =>
      rw [step, stepStatement] at hstep
      split at hstep
      · cases hstep
      · split at hstep
        · rw [Except.bind_return] at hstep
          obtain ⟨s, -, heq⟩ := Except.map_eq_ok_iff.1 hstep
          cases heq
          exact words_of_executionNotices hn
        · simp only [Except.ok.injEq, Prod.mk.injEq] at hstep
          rw [← hstep.2, List.mem_singleton] at hn
          simp [hn]
  | fileRow index directory name =>
      obtain ⟨i, -, hstep⟩ := Except.bind_eq_ok_iff.1 hstep
      obtain ⟨d, -, hstep⟩ := Except.bind_eq_ok_iff.1 hstep
      cases hstep
      obtain rfl := List.mem_singleton.1 hn
      simp
  | directoryRow index name =>
      obtain ⟨i, -, hstep⟩ := Except.bind_eq_ok_iff.1 hstep
      cases hstep
      obtain rfl := List.mem_singleton.1 hn
      simp
  | initialIsStmt flag =>
      cases hstep
      cases hn
  | heading =>
      cases hstep
      cases hn

theorem builder_distinguishes : builder.Distinguishes format := by
  intro p line q ns hread n hn other
  rw [format_readLine] at hread
  obtain ⟨content, -, hstep⟩ := p.readLine_eq_some hread
  have hwords := words_of_step hstep hn
  constructor
  · rintro rfl
    simp [Builder.warning, builder] at hwords
  · rintro rfl
    simp [Builder.reminder, builder] at hwords

/-- What both machines have read since is the same, on top of what each had read before. -/
def OnTopOf (a b : LineProgram) (p q : LineProgram) : Prop :=
  ∃ m, p = after m a ∧ q = after m b

theorem readLine_after_eq_none_iff {m a : LineProgram} {line : String} :
    (after m a).readLine line = .ok none ↔ m.readLine line = .ok none := by
  have hread := readLine_after m a line
  rcases hm : m.readLine line with f | _ | ⟨q, ns⟩ <;>
    rcases hma : (after m a).readLine line with f | _ | ⟨q, ns⟩ <;>
    simp_all [Except.map]

theorem readLine_after_eq_some_iff {m a p : LineProgram} {line : String} :
    (∃ ns, (after m a).readLine line = .ok (some (p, ns))) ↔
      ∃ q ns, m.readLine line = .ok (some (q, ns)) ∧ p = after q a := by
  have hread := readLine_after m a line
  generalize m.readLine line = below at hread ⊢
  generalize (after m a).readLine line = above at hread ⊢
  rcases below with f | _ | ⟨q, ns⟩ <;> rcases above with f' | _ | ⟨q', ns'⟩ <;>
    simp_all [Except.map, eq_comm]

theorem keeps_onTopOf (a b : LineProgram) : format.Keeps (OnTopOf a b) where
  rejects := by
    rintro _ _ line ⟨m, rfl, rfl⟩ hread
    exact readLine_after_eq_none_iff.2 (readLine_after_eq_none_iff.1 hread)
  accepts := by
    rintro _ _ line p' ns ⟨m, rfl, rfl⟩ hread
    obtain ⟨q, ms, hq, rfl⟩ := readLine_after_eq_some_iff.1 ⟨ns, hread⟩
    obtain ⟨ms', hread'⟩ := readLine_after_eq_some_iff.2 ⟨q, ms, hq, rfl⟩
    exact ⟨after q b, ms', hread', q, rfl, rfl⟩

/-- Without a statement that it does not know the machine reads the other lines as it did, and does the same but
that it does not keep the statement. -/
theorem read_leftOut_of_unknown {earlier later : List String} {line text : String} {vs : List Bool}
    {k : Desk LineProgram} (hread : builder.read (earlier ++ line :: later) = .ok vs k)
    (hline : IsStatement line text) (hunknown : Statement.ofText? text = none) :
    ∃ n k', builder.read (earlier ++ later) = .ok (vs.eraseIdx earlier.length) k' ∧
      k.state.unknownStatements[n]? = some text ∧
      k'.state = { k.state with unknownStatements := k.state.unknownStatements.eraseIdx n } ∧
      k'.unrecognized = k.unrecognized := by
  have hlength : earlier.length < vs.length := by
    rw [builder.length_of_run_feed hread]
    simp
  obtain ⟨us, k₁, k₂, ws, hearlier, hrun, hlater, herase⟩ :=
    builder.read_eq_ok_split hread (List.getElem?_eq_getElem hlength)
  have htext := ofText?_eq_statement_iff.2 hline
  obtain ⟨q, ns, hq, -, rfl⟩ | ⟨hq, -, -⟩ := builder_realizes.run_feedLine_eq_ok_iff.1 hrun
  · rw [format_readLine] at hq
    obtain ⟨content, hcontent, hstep⟩ := k₁.state.readLine_eq_some hq
    cases htext.symm.trans hcontent
    rcases step_statement_cases hstep with ⟨s, hs, -⟩ | ⟨-, rfl⟩
    · cases hs.symm.trans (Statement.carriedOut?_eq_none hunknown)
    · obtain ⟨k', hlater', m, hm, hm'⟩ :=
        builder_realizes.run_feed_of_keeps (keeps_onTopOf _ k₁.state) hlater (l := k₁)
          ⟨k₁.state.forgetful, (forgetful_after _).symm, (forgetful_after _).symm⟩
      refine ⟨k₁.state.unknownStatements.length, k', ?_, ?_, ?_, ?_⟩
      · rw [herase]
        exact builder.read_append_of_run_feed hearlier hlater'
      · rw [hm]
        simp [after]
      · rw [hm, hm']
        have hone (u w : List String) : (u ++ [text] ++ w).eraseIdx u.length = u ++ w := by
          rw [List.append_assoc, List.eraseIdx_append_of_length_le (Nat.le_refl _)]
          simp
        simp only [after, hone]
      · have hk := builder_realizes.unrecognized_of_run_feed hlater
        have hk' := builder_realizes.unrecognized_of_run_feed hlater'
        exact Array.toList_inj.1 (hk'.trans hk.symm)
  · rw [format_readLine] at hq
    cases htext.symm.trans (k₁.state.readLine_eq_none hq)

end LineProgram

/-! ## The four dumps -/

/-- On each of the four dumps a line that is not understood changes nothing but the record of such lines and the
notices, and it may be left out; so may a statement that the line program does not know, which changes only what
it keeps of such statements. The builders read what the dumps are read to. -/
theorem dumps_rejectCleanly :
    (Listing.builder.RejectsCleanly ∧ SymbolTable.builder.RejectsCleanly ∧
      DebugInfo.builder.RejectsCleanly ∧ LineProgram.builder.RejectsCleanly) ∧
    (∀ earlier line later text understood k,
      LineProgram.builder.read (earlier ++ line :: later) = .ok understood k →
      LineProgram.IsStatement line text → LineProgram.Statement.ofText? text = none →
      ∃ n k', LineProgram.builder.read (earlier ++ later) = .ok (understood.eraseIdx earlier.length) k' ∧
        k.state.unknownStatements[n]? = some text ∧
        k'.state = { k.state with unknownStatements := k.state.unknownStatements.eraseIdx n } ∧
        k'.unrecognized = k.unrecognized) ∧
    ∀ lines, told (Listing.builder.read lines) = Listing.format.read lines ∧
      told (SymbolTable.builder.read lines) = SymbolTable.format.read lines ∧
      told (DebugInfo.builder.read lines) = DebugInfo.format.read lines ∧
      told (LineProgram.builder.read lines) = LineProgram.format.read lines := by
  refine ⟨⟨?_, ?_, ?_, ?_⟩, ?_, ?_⟩
  · exact Listing.builder_realizes.rejectsCleanly
      (Listing.builder.distinguishes_of_silent Listing.notices_of_readLine)
  · exact SymbolTable.builder_realizes.rejectsCleanly
      (SymbolTable.builder.distinguishes_of_silent SymbolTable.notices_of_readLine)
  · exact DebugInfo.builder_realizes.rejectsCleanly
      (DebugInfo.builder.distinguishes_of_silent DebugInfo.notices_of_readLine)
  · exact LineProgram.builder_realizes.rejectsCleanly LineProgram.builder_distinguishes
  · intro earlier line later text understood k hread hline hunknown
    exact LineProgram.read_leftOut_of_unknown hread hline hunknown
  · intro lines
    exact ⟨Listing.builder_realizes.told_read lines, SymbolTable.builder_realizes.told_read lines,
      DebugInfo.builder_realizes.told_read lines, LineProgram.builder_realizes.told_read lines⟩

/-- An instruction before any entry, twice, and once more within one. -/
def strayInstruction : List String :=
  ["  0:\t90 \tnop", "Disassembly of section .text:", "  0:\t90 \tnop", "0000000000000000 <f>:",
    "  0:\t90 \tnop"]

theorem dumps_rejectCleanly_strayInstruction :
    ∃ k k', Listing.builder.read strayInstruction = .ok [false, true, false, true, true] k ∧
      Listing.builder.read (strayInstruction.take 2 ++ strayInstruction.drop 3) =
        .ok [false, true, true, true] k' ∧
      k'.state = k.state ∧ k.unrecognized.toList = ["  0:\t90 \tnop", "  0:\t90 \tnop"] ∧
      k.notices.count (Listing.builder.warning "  0:\t90 \tnop") = 1 := by
  have hcomputed : (match Listing.builder.read strayInstruction with
      | .ok understood _ => some understood
      | .error _ _ => none) = some [false, true, false, true, true] := by
    decide +kernel
  obtain ⟨⟨hlisting, -, -, -⟩, -, -⟩ := dumps_rejectCleanly
  rcases hk : Listing.builder.read strayInstruction with ⟨understood, k⟩ | ⟨f, k⟩
  · rw [hk] at hcomputed
    cases hcomputed
    obtain ⟨k', hk', hstate⟩ :=
      hlisting.leftOut (strayInstruction.take 2) "  0:\t90 \tnop" (strayInstruction.drop 3) _ k hk rfl
    refine ⟨k, k', rfl, hk', hstate, ?_, ?_⟩
    · rw [hlisting.recorded _ _ k hk]
      decide +kernel
    · rw [hlisting.warned _ _ k hk]
      decide +kernel
  · rw [hk] at hcomputed
    cases hcomputed

end LineAtlas
