import TextConsole.Proofs.Mirror

/-!
# What the focus and the bell do not change

A console knows whether it has the focus and whether its bell can be heard. With the focus
it also writes registers, and with the bell it also rings; in all else it does the same
(`undistracted_simulation`). So a computation leaves the same console and draws the same on
its display, whoever has the focus and whether or not the bell is silenced
(`Input.steadfast`, `steadfast_goHome`).
-/

namespace TextConsole

/-- The surface with the focus and the bell set otherwise. -/
def Surface.attended (s : Surface) (focused bell : Bool) : Surface :=
  { s with
    focused := focused
    settings := { s.settings with
      behavior := { s.settings.behavior with bellEnabled := bell } } }

theorem Surface.matches_attended (s : Surface) (focused bell : Bool) :
    s.Matches (s.attended focused bell) := ⟨rfl, rfl, rfl⟩

/-! ## Effects that draw -/

/-- Whether an effect is on video memory. -/
def Effect.draws : Effect → Bool
  | .write _ _ => true
  | .fill _ _ => true
  | .copy _ _ _ => true
  | .setBlank _ => true
  | .setRegister _ _ => false
  | .ring => false

/-- The effects on video memory. -/
def drawing (effects : Array Effect) : Array Effect := effects.filter Effect.draws

@[simp] theorem drawing_append (xs ys : Array Effect) :
    drawing (xs ++ ys) = drawing xs ++ drawing ys :=
  Array.filter_append Array.size_append

theorem drawing_ite_setRegister (p : Prop) [Decidable p] (r : Register) (addr : Nat) :
    drawing (if p then #[.setRegister r addr] else #[]) = #[] := by
  split <;> rfl

/-- A display only takes the effects on video memory. -/
theorem Display.performAll_drawing (d : Display) (effects : Array Effect) :
    d.performAll (drawing effects) = d.performAll effects := by
  have hskip : ∀ (d : Display) (e : Effect),
      (if e.draws = true then d.perform e else d) = d.perform e := by
    intro d e
    cases e <;> rfl
  rw [drawing, performAll, performAll, Array.foldl_filter]
  simp only [hskip]

namespace Console

variable {s : Surface} {c c' : Console} {es es' : Array Effect} {x x' : Output Console}
  {focused bell : Bool}

/-- Whether the same console is on both sides, after effects that draw the same and, if
the bell was left as it is, ring it as often. -/
structure Undistracted (s : Surface) (bell : Bool) (c : Console) (es : Array Effect)
    (c' : Console) (es' : Array Effect) : Prop where
  console : c' = c
  quiet : c.Quiet
  drawing : drawing es' = drawing es
  rings : bell = s.settings.behavior.bellEnabled → rings es' = rings es

/-- A further part that leaves the same console and draws the same. -/
theorem Undistracted.ends (h : Undistracted s bell c es c' es') (hvalue : x'.value = x.value)
    (hquiet : x.value.Quiet)
    (hdrawing : TextConsole.drawing x'.effects = TextConsole.drawing x.effects)
    (hrings : bell = s.settings.behavior.bellEnabled →
      TextConsole.rings x'.effects = TextConsole.rings x.effects) :
    Undistracted s bell x.value (es ++ x.effects) x'.value (es' ++ x'.effects) where
  console := hvalue
  quiet := hquiet
  drawing := by rw [drawing_append, drawing_append, h.drawing, hdrawing]
  rings := fun hbell => by rw [rings_append, rings_append, h.rings hbell, hrings hbell]

/-! ## Steps with and without attention -/

theorem perform_attended {command : Command} (hedit : command.IsEdit) :
    c.perform (s.attended focused bell) command = c.perform s command := by
  cases command with
  | eraseInDisplay mode => cases mode <;> rfl
  | eraseInLine mode => cases mode <;> rfl
  | insertLines | deleteLines | insertChars | deleteChars => rfl
  | _ => exact hedit.elim

theorem flushed_attended : c.flushed (s.attended focused bell) = c.flushed s := rfl

theorem scrollMethod_attended (d : Direction) :
    c.scrollMethod (s.attended focused bell) d = c.scrollMethod s d := by
  cases d <;> rfl

theorem nextOrigin_attended (d : Direction) :
    c.nextOrigin (s.attended focused bell) d = c.nextOrigin s d := by
  rw [nextOrigin, nextOrigin, flushed_attended, scrollMethod_attended]
  cases d <;> rfl

theorem value_scroll_attended (d : Direction) :
    (c.scroll (s.attended focused bell) d).value = (c.scroll s d).value := by
  rw [value_scroll, value_scroll, nextOrigin_attended, flushed_attended, flushed_attended]

theorem drawing_settle (row col : Int) :
    drawing (c.settle s row col).effects =
      drawing (if c.queue ≠ [] then #[.write c.cursorAddr c.queue] else #[]) := by
  rw [effects_settle, drawing_append, drawing_ite_setRegister, Array.append_empty]

theorem drawing_scrollEffects (d : Direction) :
    drawing (c.scrollEffects s d) =
      drawing ((if (c.flushed s).scrollMethod s d ≠ .shift
        then #[(c.flushed s).moveKeptRows s (c.nextOrigin s d) d] else #[]) ++
      #[.fill (exposedRow s (c.nextOrigin s d) d) s.columns]) := by
  rw [scrollEffects, drawing_append, drawing_ite_setRegister, Array.append_empty]

theorem drawing_scroll (d : Direction) :
    drawing (c.scroll s d).effects =
      drawing (c.flush s).effects ++ drawing (c.scrollEffects s d) := by
  have hlast : drawing (flush s { c.flushed s with origin := c.nextOrigin s d }).effects = #[] :=
    drawing_settle (c := { c.flushed s with origin := c.nextOrigin s d }) _ _
  rw [effects_scroll, drawing_append, drawing_append, hlast, Array.append_empty]

theorem drawing_scroll_attended (d : Direction) :
    drawing (c.scroll (s.attended focused bell) d).effects = drawing (c.scroll s d).effects := by
  rw [drawing_scroll, drawing_scroll, flush, flush, drawing_settle, drawing_settle,
    drawing_scrollEffects, drawing_scrollEffects, nextOrigin_attended, flushed_attended,
    scrollMethod_attended, moveKeptRows_eq, moveKeptRows_eq]
  cases d <;> rfl

theorem Undistracted.settle (h : Undistracted s bell c es c' es') (row col : Int) :
    Link.Ends (Undistracted s bell) es es' (c.settle s row col)
      (c'.settle (s.attended focused bell) row col) := by
  obtain rfl := h.console
  refine h.ends rfl (fun _ => rfl) ?_ fun _ => ?_
  · rw [drawing_settle, drawing_settle]
  · rw [rings_eq_zero (plain_settle row col), rings_eq_zero (plain_settle row col)]

theorem Undistracted.enqueue (h : Undistracted s bell c es c' es')
    (hescape : c.escape.isCollecting = false) (code : UInt8) :
    Link.Ends (Undistracted s bell) es es' (c.enqueue s code)
      (c'.enqueue (s.attended focused bell) code) := by
  obtain rfl := h.console
  have hroom : Link.Ends (Undistracted s bell) es es' (c'.makeRoom s)
      (c'.makeRoom (s.attended focused bell)) := by
    unfold makeRoom
    split
    · exact Link.done h
    · exact h.settle _ _
  refine hroom.bind fun h => Link.done ⟨by rw [h.console], ?_, h.drawing, h.rings⟩
  intro hcollect
  rw [escape_place, escape_makeRoom, hescape] at hcollect
  cases hcollect

/-- **Neither the focus nor the bell changes what a console draws.** -/
theorem undistracted_simulation (hcolumns : 0 < s.columns) (focused bell : Bool) :
    Simulation s (s.attended focused bell) (Undistracted s bell) where
  columns_pos := hcolumns
  columns := rfl
  rows := rfl
  nextTabStop := fun _ => rfl
  lineWrap := rfl
  newlineReturnsCarriage := rfl
  row := fun h => congrArg Console.row h.console
  col := fun h => congrArg Console.col h.console
  escape := fun h => congrArg Console.escape h.console
  quiet := fun h => ⟨h.quiet, by rw [h.console]; exact h.quiet⟩
  settle := fun row col h => h.settle row col
  scroll := by
    intro c es c' es' d h
    obtain rfl := h.console
    refine h.ends (value_scroll_attended d) (fun _ => rfl) (drawing_scroll_attended d) fun _ => ?_
    rw [rings_eq_zero (plain_scroll d), rings_eq_zero (plain_scroll d)]
  enqueue := fun h _ hescape _ => h.enqueue hescape _
  edit := by
    intro c es c' es' command h hqueue _ hedit
    obtain rfl := h.console
    rw [perform_attended hedit]
    exact h.ends rfl ((Step.edit hqueue hedit).quiet h.quiet) rfl fun _ => rfl
  recolor := by
    intro c es c' es' change h hqueue _
    obtain rfl := h.console
    have hquiet := (Step.recolor (s := s) change hqueue).quiet h.quiet
    exact h.ends rfl hquiet rfl fun _ => rfl
  chime := by
    intro c es c' es' h
    obtain rfl := h.console
    refine h.ends rfl h.quiet ?_ fun hbell => ?_
    · rw [chime, chime, emitIf_bell, emitIf_bell]
      split <;> split <;> rfl
    · rw [chime, chime, hbell]
      rfl
  collect := by
    intro c es c' es' escape h hqueue _
    obtain rfl := h.console
    exact ⟨rfl, fun _ => hqueue, h.drawing, h.rings⟩
  acknowledge := by
    intro c es c' es' h
    obtain rfl := h.console
    exact ⟨rfl, h.quiet, h.drawing, h.rings⟩

/-! ## Whole computations -/

/-- Whether a computation leaves the same console and draws the same with the focus and
the bell set otherwise. -/
def Steadfast (f : Surface → Console → Output Console) : Prop :=
  ∀ {s : Surface} {c : Console} (focused bell : Bool), s.Holds c.region → c.WellPlaced s →
    Undistracted s bell (f s c).value (f s c).effects (f (s.attended focused bell) c).value
      (f (s.attended focused bell) c).effects

theorem Input.steadfast {f : Surface → Console → Output Console} (hf : Input f) : Steadfast f := by
  intro s c focused bell hs hc
  have hstart : Undistracted s bell c #[] c #[] := ⟨rfl, hc.quiet, rfl, fun _ => rfl⟩
  have hends := (undistracted_simulation hs.columns_pos focused bell).input hf hstart
  simpa [Link.Ends] using hends

theorem steadfast_goHome : Steadfast fun s c => c.goHome s := by
  intro s c focused bell hs hc
  have hmatch := s.matches_attended focused bell
  have hwindow := hc.origin_within
  have hs' := hmatch.holds hs
  have hwindow' := (hmatch.wellPlaced hc).origin_within
  refine ⟨?_, (Step.home (s := s)).quiet hc.quiet, ?_, fun _ => ?_⟩
  · rw [value_goHome hs hwindow, value_goHome hs' hwindow', flushed_attended]
  · rw [effects_goHome hs hwindow, effects_goHome hs' hwindow', drawing_append, drawing_append,
      flush, flush, drawing_settle, drawing_settle]
    rfl
  · rw [rings_eq_zero (plain_goHome hs hwindow), rings_eq_zero (plain_goHome hs' hwindow')]

end Console

end TextConsole
