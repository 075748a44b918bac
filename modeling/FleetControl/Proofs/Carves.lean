import FleetControl.Proofs.Reach

/-!
# The path in the text of a carve

The path of a carve stands in its text as a literal. Whoever reads the text after the quote that opens the literal reads up to a quote
that is not doubled (`Carve.readLiteral`), and this is the last quote of the text, whatever quotes are in the path: what was read is
the path, and nothing of the path is left to be read as anything else (`Carve.asksFor_iff`). So a carve that is launched asks for
the file that its row names (`Carve.path_of_text`).
-/

namespace FleetControl

open Program (of_run_bind_eq_ok of_run_map_eq_ok)

namespace Carve

/-! ## Reading a literal -/

/-- What is read of a literal after the quote that opens it: its value, and what stands after the quote that closes it. Two quotes are
one of the value, and a quote that no other follows closes the literal. -/
def readLiteral : List Char → Option (List Char × List Char)
  | [] => none
  | '\'' :: '\'' :: cs => (readLiteral cs).map fun read => ('\'' :: read.1, read.2)
  | '\'' :: cs => some ([], cs)
  | c :: cs => (readLiteral cs).map fun read => (c :: read.1, read.2)

/-- A quote closes the literal unless another follows. -/
theorem readLiteral_quote {rest : List Char} (h : rest.head? ≠ some '\'') : readLiteral ('\'' :: rest) = some ([], rest) := by
  rw [readLiteral]
  rintro rest rfl
  exact h rfl

/-- A character that is no quote is one of the value. -/
theorem readLiteral_of_ne {c : Char} (h : c ≠ '\'') (cs : List Char) :
    readLiteral (c :: cs) = (readLiteral cs).map fun read => (c :: read.1, read.2) := by
  rw [readLiteral]
  · exact fun _ hquote _ => h hquote
  · exact h

/-- A literal that closes is the value with every quote doubled, and the quote that closes it. -/
theorem of_readLiteral_eq_some {cs value rest : List Char} (h : readLiteral cs = some (value, rest)) :
    cs = doubled value ++ '\'' :: rest ∧ rest.head? ≠ some '\'' := by
  fun_induction readLiteral cs generalizing value with
  | case1 => cases h
  | case2 cs ih =>
    obtain ⟨⟨value, _⟩, hread, heq⟩ := Option.map_eq_some_iff.mp h
    cases heq
    obtain ⟨rfl, hrest⟩ := ih hread
    exact ⟨rfl, hrest⟩
  | case3 cs hnone =>
    cases h
    refine ⟨rfl, ?_⟩
    intro hquote
    obtain ⟨cs', hcs⟩ := List.head?_eq_some_iff.mp hquote
    exact hnone cs' hcs
  | case4 c cs _ hne ih =>
    obtain ⟨⟨value, _⟩, hread, heq⟩ := Option.map_eq_some_iff.mp h
    cases heq
    obtain ⟨rfl, hrest⟩ := ih hread
    rw [doubled, if_neg hne]
    exact ⟨rfl, hrest⟩

/-- A value with every quote doubled is read back, whatever is after the quote that closes the literal, unless that is a quote. -/
theorem readLiteral_doubled (value : List Char) {rest : List Char} (h : rest.head? ≠ some '\'') :
    readLiteral (doubled value ++ '\'' :: rest) = some (value, rest) := by
  induction value with
  | nil => exact readLiteral_quote h
  | cons c value ih =>
    rw [doubled]
    by_cases hquote : c = '\''
    · rw [if_pos hquote, hquote, List.cons_append, List.cons_append, readLiteral, ih]
      rfl
    · rw [if_neg hquote, List.cons_append, readLiteral_of_ne hquote, ih]
      rfl

/-- What is read of a literal tells just what it is. -/
theorem readLiteral_eq_some_iff {cs value rest : List Char} :
    readLiteral cs = some (value, rest) ↔ cs = doubled value ++ '\'' :: rest ∧ rest.head? ≠ some '\'' := by
  refine ⟨of_readLiteral_eq_some, ?_⟩
  rintro ⟨rfl, hrest⟩
  exact readLiteral_doubled value hrest

/-! ## The text of a carve -/

/-- What stands in the text of a carve up to the quote that opens the literal. -/
def opening : String := "SELECT * FROM carves WHERE carve=1 AND path = '"

/-- The text asks for the file at the path and for nothing else: after the opening a literal is read whose value is the path, the last
quote of the text closes it, and a semicolon is left. -/
def AsksFor (query path : String) : Prop :=
  ∃ body rest, query.toList = opening.toList ++ (body ++ '\'' :: rest) ∧ '\'' ∉ rest ∧
    readLiteral (body ++ '\'' :: rest) = some (path.toList, rest) ∧ rest = [';']

theorem toList_text (path : String) : (text path).toList = opening.toList ++ (doubled path.toList ++ '\'' :: [';']) := by
  have hopening : opening.toList = "SELECT * FROM carves WHERE carve=1 AND path = ".toList ++ "'".toList := by decide
  have hclosing : "'".toList ++ ";".toList = '\'' :: [';'] := by decide
  unfold text literal
  simp only [String.toList_append, String.toList_ofList, List.append_assoc, hopening, hclosing]

/-- The text that asks for the file at a path is the one that is written for it. -/
theorem asksFor_iff {query path : String} : AsksFor query path ↔ query = text path := by
  constructor
  · rintro ⟨body, rest, htext, -, hread, rfl⟩
    rw [← String.toList_inj, htext, toList_text, (readLiteral_eq_some_iff.mp hread).1]
  · rintro rfl
    exact ⟨doubled path.toList, [';'], toList_text path, by decide, readLiteral_eq_some_iff.mpr ⟨rfl, by decide⟩, rfl⟩

/-- A text asks for the file at one path only. -/
theorem AsksFor.eq {query path path' : String} (h : AsksFor query path) (h' : AsksFor query path') : path = path' := by
  obtain ⟨body, rest, htext, -, hread, -⟩ := h
  obtain ⟨body', rest', htext', -, hread', -⟩ := h'
  rw [htext] at htext'
  rw [List.append_cancel_left htext', hread'] at hread
  exact String.toList_inj.mp (congrArg Prod.fst (Option.some.inj hread)).symm

theorem text_injective : Function.Injective text := by
  intro path path' heq
  exact (asksFor_iff.mpr rfl).eq (asksFor_iff.mpr heq)

end Carve

/-! ## Carves that are launched -/

/-- A launch that is not refused adds the query, under a name that no query had. -/
theorem Fleet.queries_of_run_launch {settings : Settings} {draft : Query.Draft} {targets : List Target} {time : Time} {s s' : Store}
    {handle : Handle} (h : (launch settings draft targets).run time s = (.ok handle, s')) :
    ∃ q, s'.queries = s.queries ++ [q] ∧ q.name = handle.name ∧ handle.name ∉ s.queryNames ∧
      q.toDraft = { draft with expected := handle.expected } := by
  obtain ⟨kept, -, hfree, hname, -, rfl⟩ := of_run_launch_eq_ok h
  have hfresh : ({ draft with expected := handle.expected } : Query.Draft).name ∉ s.queryNames := hfree
  rw [hname, Call.after_insertQueryWithTargets_of_fresh s time hfresh]
  exact ⟨_, rfl, rfl, hfree, rfl⟩

/-- A carve that is launched is launched for the trimmed path, which is not empty, with the text that is written for it. -/
theorem Fleet.of_run_createCarve_eq_ok {settings : Settings} {token : QueryName.Token} {actor path : String} {targets : List Target}
    {time : Time} {s s' : Store} {handle : Handle}
    (h : (createCarve settings token actor path targets).run time s = (.ok handle, s')) :
    Text.trim path ≠ "" ∧ ∃ draft : Query.Draft,
      (draft.kind = .carve ∧ draft.path = some (Text.trim path) ∧ draft.text = Carve.text (Text.trim path)) ∧
        (launch settings draft targets).run time s = (.ok handle, s') := by
  unfold createCarve at h
  obtain ⟨_, s₁, hpasses, hlaunch⟩ := of_run_bind_eq_ok h
  obtain rfl := Program.eq_of_run_of_reads (Accounts.asks_require (fun _ => id) actor .carve none) hpasses
  dsimp only at hlaunch
  split at hlaunch
  · cases hlaunch
  · rename_i hpath
    exact ⟨hpath, _, ⟨rfl, rfl, rfl⟩, hlaunch⟩

/-- In the text of a carve a literal is read whose value is the path, whatever the path is: it is closed by the last quote of the text,
and a semicolon is left. So no two paths have the same text. A carve that is launched adds one query, under a name that no query had,
whose path is the trimmed one that was asked for and not empty, and whose text asks for the file at this path. -/
theorem Carve.path_of_text (settings : Settings) :
    (∀ path, AsksFor (text path) path) ∧ Function.Injective text ∧
      ∀ token actor path targets time s handle s',
        (Operation.createCarve token actor path targets).run settings time s = (.ok (.handle handle), s') →
        ∃ q, s'.queries = s.queries ++ [q] ∧ (q.name = handle.name ∧ handle.name ∉ s.queryNames) ∧ q.kind = .carve ∧
          (q.path = some (Text.trim path) ∧ Text.trim path ≠ "") ∧ AsksFor q.text (Text.trim path) := by
  refine ⟨fun path => asksFor_iff.mpr rfl, text_injective, ?_⟩
  intro token actor path targets time s handle s' hrun
  obtain ⟨_, hcreate, heq⟩ := of_run_map_eq_ok hrun
  cases heq
  obtain ⟨hpath, draft, ⟨hkind, hdrawn, htext⟩, hlaunch⟩ := Fleet.of_run_createCarve_eq_ok hcreate
  obtain ⟨q, hqueries, hname, hfree, hdraft⟩ := Fleet.queries_of_run_launch hlaunch
  refine ⟨q, hqueries, ⟨hname, hfree⟩, ?_, ⟨?_, hpath⟩, asksFor_iff.mpr ?_⟩
  · rw [hdraft, hkind]
  · rw [hdraft, hdrawn]
  · rw [hdraft, htext]

/-- The file at a path that would close the literal and go on if its quotes were not doubled is asked for as a whole. -/
theorem Carve.path_of_text_of_quotes :
    let settings : Settings := .embedded ["prod"]
    let s := Operation.replay settings .empty [(0, .ensureAdmin "root"),
      (1, .enroll "a-1" "key" { Attributes.blank with environment := "prod" })]
    let op : Operation := .createCarve 7 "root" " '; DROP '' x'\u2003" [⟨.uuid, "A-1"⟩]
    (op.run settings 2 s).1 = .ok (.handle ⟨QueryName.carve 7, 1⟩) ∧
      ∃ q, (op.run settings 2 s).2.queries = [q] ∧ q.path = some "'; DROP '' x'" ∧ AsksFor q.text "'; DROP '' x'" ∧
        q.text = "SELECT * FROM carves WHERE carve=1 AND path = '''; DROP '''' x''';" := by
  intro settings s op
  have hanswer : (op.run settings 2 s).1 = .ok (.handle ⟨QueryName.carve 7, 1⟩) := by decide +kernel
  have htrim : Text.trim " '; DROP '' x'\u2003" = "'; DROP '' x'" := by decide +kernel
  have hnone : s.queries = [] := by decide +kernel
  have hrun : op.run settings 2 s = (.ok (.handle ⟨QueryName.carve 7, 1⟩), (op.run settings 2 s).2) := by rw [← hanswer]
  obtain ⟨-, -, hcarve⟩ := path_of_text settings
  obtain ⟨q, hqueries, -, -, ⟨hpath, -⟩, hasks⟩ :=
    hcarve 7 "root" " '; DROP '' x'\u2003" [⟨.uuid, "A-1"⟩] 2 s ⟨QueryName.carve 7, 1⟩ (op.run settings 2 s).2 hrun
  rw [htrim] at hpath hasks
  rw [hnone] at hqueries
  refine ⟨hanswer, q, hqueries, hpath, hasks, ?_⟩
  rw [asksFor_iff.mp hasks]
  decide +kernel

end FleetControl
