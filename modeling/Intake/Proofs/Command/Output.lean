import Intake.Proofs.Command.Endings
import Intake.Proofs.Text.Lines
import Intake.Proofs.Text.Replacement

/-!
# What a tool writes

Bytes that cannot be decoded are replaced, and no text is lost to them: neither in what is kept nor in the
lines that are handed on, which are those of one part of the bytes and then of the other wherever a line ends.
-/
namespace Intake.Command

open Text

theorem textOf_around {s : String} (hs : s ≠ "") (b b' : List UInt8) :
    textOf (b ++ s.toUTF8.data.toList ++ b') = unifyBreaks (Utf8.decode b ++ s.toList ++ Utf8.decode b') := by
  rw [textOf, Utf8.decode_around hs]

theorem textOf_text {s : String} (h : '\r' ∉ s.toList) : textOf s.toUTF8.data.toList = s.toList := by
  have hd := Utf8.decode_text s.toList []
  rw [List.append_nil, ← Utf8.data_toUTF8] at hd
  rw [textOf, hd, Utf8.decode, Utf8.decodeFrom, Utf8.finish, List.append_nil, unifyBreaks_of_not_mem h]

theorem decode_lineFeed (b b' : List UInt8) :
    Utf8.decode (b ++ 0x0A :: b') = Utf8.decode b ++ '\n' :: Utf8.decode b' := by
  rw [Utf8.decode_append_cons (by decide)]
  exact congrArg _ (Utf8.decode_char '\n' b')

theorem linesOf_append (b b' : List UInt8) :
    linesOf (b ++ 0x0A :: b') = linesOf (b ++ [0x0A]) ++ linesOf b' := by
  obtain ⟨u, hu⟩ := exists_unifyBreaks_append (Utf8.decode b)
  have hend : textOf (b ++ [0x0A]) = u ++ ['\n'] := by
    rw [textOf, decode_lineFeed]
    exact hu []
  rw [linesOf, linesOf, hend, textOf, decode_lineFeed, hu, lines_append, List.map_append, linesOf, textOf]

theorem linesOf_eq_nil_iff {bytes : List UInt8} : linesOf bytes = [] ↔ bytes = [] := by
  rw [linesOf, List.map_eq_nil_iff, lines_eq_nil_iff, textOf, unifyBreaks_eq_nil_iff]
  exact ⟨Utf8.eq_nil_of_decode, fun h => h ▸ rfl⟩

theorem not_mem_linesOf {bytes : List UInt8} {line : String} (h : line ∈ linesOf bytes) :
    '\n' ∉ line.toList ∧ '\r' ∉ line.toList := by
  obtain ⟨l, hl, rfl⟩ := List.mem_map.mp h
  rw [String.toList_ofList]
  constructor
  · intro hc
    exact (mem_of_mem_lines hl _ hc).2 rfl
  · intro hc
    exact carriageReturn_not_mem_unifyBreaks _ (mem_of_mem_lines hl _ hc).1

theorem intercalate_linesOf (bytes : List UInt8) :
    "\n".intercalate (linesOf bytes) = String.ofList (withoutLastBreak (textOf bytes)) := by
  have hmap : (linesOf bytes).map String.toList = lines (textOf bytes) := by
    rw [linesOf, List.map_map]
    exact List.map_id'' (fun l => String.toList_ofList) _
  have hjoin : ("\n".intercalate (linesOf bytes)).toList = withoutLastBreak (textOf bytes) := by
    rw [String.toList_intercalate, hmap, ← intercalate_lines]
    rfl
  rw [← hjoin, String.ofList_toList]

section

variable {τ : Type} {c : Command} {sink : String → Action (Outside × τ) Unit} {w : Outside} {t : τ} {p : ToolRun}

/-- Text between bytes that cannot be decoded is kept as it is, and what cannot be decoded is replaced, longest
piece by longest piece. Lines are read in the same way. -/
theorem run_keeps_text {s' : Outside × τ} {b₁ b₂ : List UInt8} {text : String} (hp : w.runs.headD .quiet = p)
    (hstart : p.startFault = none) (hread : p.stdoutFault = none)
    (hsink : Takes sink (linesOf p.stderr) (c.begun w, t) s') (ht : text ≠ "")
    (hout : p.stdout = b₁ ++ text.toUTF8.data.toList ++ b₂) :
    (∀ bytes d, Utf8.Replaced bytes d ↔ d = Utf8.decode bytes) ∧
    (∃ r, (c.run sink).run (w, t) = (.ok r, s') ∧ r.exitCode = exitCodeOf p.exitStatus ∧
      r.stdout = String.ofList (unifyBreaks (Utf8.decode b₁ ++ text.toList ++ Utf8.decode b₂)) ∧
      (b₁ = [] → b₂ = [] → '\r' ∉ text.toList → r.stdout = text)) ∧
    ∀ e₁ e₂ line, line ≠ "" → p.stderr = e₁ ++ line.toUTF8.data.toList ++ e₂ →
      linesOf p.stderr =
        (lines (unifyBreaks (Utf8.decode e₁ ++ line.toList ++ Utf8.decode e₂))).map String.ofList := by
  have hrun : (c.run sink).run (w, t) = (.ok ⟨exitCodeOf p.exitStatus, String.ofList (textOf p.stdout)⟩, s') := by
    rw [run_eq_follow, hp]
    exact (Ending.finished hstart hsink hread).run_follow
  refine ⟨fun bytes d => Utf8.replaced_iff, ⟨_, hrun, rfl, ?_, ?_⟩, ?_⟩
  · rw [hout, textOf_around ht]
  · rintro rfl rfl hr
    rw [hout, List.nil_append, List.append_nil, textOf_text hr, String.ofList_toList]
  · intro e₁ e₂ line hl he
    rw [linesOf, he, textOf_around hl]

/-- Text between a euro sign that is cut off and the beginning of a face. -/
theorem run_keeps_text_of_garbage :
    let c : Command := ⟨["tesseract"], [], none⟩
    let p : ToolRun :=
      ⟨0, [0xE2, 0x82] ++ "née\n".toUTF8.data.toList ++ [0xF0, 0x9F, 0xFF], [0xC3, 0x0A], none, none⟩
    let heard : String → Action (Outside × List String) Unit := fun line => .second (.modify (· ++ [line]))
    let final := (c.run heard).run ({ Outside.calm with runs := [p] }, [])
    final.1 = .ok ⟨0, "\uFFFDnée\n\uFFFD\uFFFD"⟩ ∧ final.2.2 = ["\uFFFD"] := by
  intro c p heard final
  let w : Outside := { Outside.calm with runs := [p] }
  have hs : Takes heard (linesOf p.stderr) (c.begun w, []) (c.begun w, ["\uFFFD"]) := .cons rfl (.nil _)
  have hout : p.stdout = [0xE2, 0x82] ++ "née\n".toUTF8.data.toList ++ [0xF0, 0x9F, 0xFF] := rfl
  obtain ⟨-, ⟨r, hr, hc, ho, -⟩, -⟩ := run_keeps_text (p := p) rfl rfl rfl hs (by decide) hout
  have hresult : r = ⟨0, "\uFFFDnée\n\uFFFD\uFFFD"⟩ := by
    cases r
    cases hc
    cases ho
    decide +kernel
  subst final
  rw [hr, hresult]
  exact ⟨rfl, rfl⟩

/-- A sink that raises no fault gets every line, and no other: joined by line feeds they are the text without
the line feed at its end. What stands behind a line feed is told apart from what stands in front of it. -/
theorem run_hands_on_lines (hp : w.runs.headD .quiet = p) (hstart : p.startFault = none)
    (hsink : ∀ line s, ∃ s', (sink line).run s = (.ok (), s')) :
    Takes sink (linesOf p.stderr) (c.begun w, t) ((c.run sink).run (w, t)).2 ∧
    (∀ line ∈ linesOf p.stderr, '\n' ∉ line.toList ∧ '\r' ∉ line.toList) ∧
    "\n".intercalate (linesOf p.stderr) = String.ofList (withoutLastBreak (textOf p.stderr)) ∧
    (linesOf p.stderr = [] ↔ p.stderr = []) ∧
    ∀ b b' : List UInt8, b.getLast? = some 0x0A → linesOf (b ++ b') = linesOf b ++ linesOf b' := by
  refine ⟨?_, fun line => not_mem_linesOf, intercalate_linesOf _, linesOf_eq_nil_iff, ?_⟩
  · obtain ⟨s', hs⟩ := exists_takes hsink (linesOf p.stderr) (c.begun w, t)
    have hend : ((c.run sink).run (w, t)).2 = s' := by
      rw [run_eq_follow, hp]
      cases ho : p.stdoutFault with
      | some text => rw [(Ending.unread hstart hs ho).run_follow]
      | none => rw [(Ending.finished hstart hs ho).run_follow]
    rw [hend]
    exact hs
  · intro b b' hb
    obtain ⟨b, rfl⟩ := List.getLast?_eq_some_iff.mp hb
    rw [List.append_assoc, List.singleton_append, linesOf_append]

/-- A last line that is not closed, behind one that ends in the middle of a character, of a tool whose text
cannot be read. -/
theorem run_hands_on_lines_of_open_end :
    let c : Command := ⟨["qpdf"], [], none⟩
    let p : ToolRun := ⟨0, [], [0x61, 0xE2, 0x82, 0x0A, 0x0D, 0x0A, 0x62], none, some "closed"⟩
    let heard : String → Action (Outside × List String) Unit := fun line => .second (.modify (· ++ [line]))
    ((c.run heard).run ({ Outside.calm with runs := [p] }, [])).2.2 = ["a\uFFFD", "", "b"] := by
  intro c p heard
  let w : Outside := { Outside.calm with runs := [p] }
  have hk (line : String) (s : Outside × List String) : ∃ s', (heard line).run s = (.ok (), s') := ⟨_, rfl⟩
  obtain ⟨ht, -⟩ := run_hands_on_lines (c := c) (w := w) (t := []) (p := p) rfl rfl hk
  have hlines : linesOf p.stderr = ["a\uFFFD", "", "b"] := by decide +kernel
  rw [hlines] at ht
  exact congrArg (fun x => x.2.2) ht.deliver.symm

end

end Intake.Command
