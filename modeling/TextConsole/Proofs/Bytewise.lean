import TextConsole.Proofs.Independence
import TextConsole.Proofs.Registers

/-!
# A run is its bytes, one at a time

A run of bytes takes a short way for characters that only need a place in the queue, and
loads the console's rendition of blanks once where single bytes load it each time. Neither
leaves a trace: the whole seat is the same as if the bytes had been sent one at a time and
the queue stored at the end, with every report, every register write and every rendition
of blanks (`sendRun_eq_sends`).

Inside the console the short way leads where the long one does (`Console.acceptRun_eq`).
What remains is one run of a console against many. While a console runs, its display has
the console's own rendition of blanks loaded, so loading it again changes nothing, and two
runs are one (`Sound.run_run`).
-/

namespace TextConsole.Seat

variable {s s' : Seat} {c : Console} {id : Nat} {f g : Surface → Console → Output Console}

theorem eq_of_parts (hconsoles : s.consoles = s'.consoles) (hdisplays : s.displays = s'.displays)
    (hfocused : s.focused = s'.focused) (hsettings : s.settings = s'.settings)
    (hjournal : s.journal = s'.journal) : s = s' := by
  cases s
  cases s'
  subst hconsoles hdisplays hfocused hsettings hjournal
  rfl

/-! ## Two runs of a console as one -/

/-- What a console finds when it runs again, it knew before. -/
theorem Sound.surface_outcome (hs : s.Sound) (hc : s.consoles[id]? = some c)
    (hf : Console.Stepwise f) :
    (s.run id f).surface id (f (s.surface id c) c).value = s.surface id c := by
  rw [surface_run, surface_congr (hs.outcome hc hf).1]

theorem Sound.consoles_run_run (hs : s.Sound) (hc : s.consoles[id]? = some c)
    (hf : Console.Stepwise f) (j : Nat) :
    ((s.run id f).run id g).consoles[j]? =
      (s.run id fun surface c => f surface c >>= g surface).consoles[j]? := by
  by_cases hj : id = j
  · subst hj
    rw [consoles_run_self (consoles_run_self hc), consoles_run_self hc, hs.surface_outcome hc hf]
    rfl
  · rw [consoles_run_of_ne hj, consoles_run_of_ne hj, consoles_run_of_ne hj]

theorem Sound.displays_run_run (hs : s.Sound) (hc : s.consoles[id]? = some c)
    (hf : Console.Stepwise f) (k : Nat) :
    ((s.run id f).run id g).displays[k]? =
      (s.run id fun surface c => f surface c >>= g surface).displays[k]? := by
  rw [displays_run (consoles_run_self hc), displays_run hc, displays_run hc,
    (hs.outcome hc hf).1, hs.surface_outcome hc hf]
  split
  · rename_i hk
    subst hk
    -- After the first run the display has the console's rendition of blanks loaded.
    have hloaded := ((hf (hs.holds hc) (hs.placed hc)).drawn (hs.drawn hc)).blank
    rw [hs.getElem?_display hc, Option.map_some, Option.map_some, Option.map_some,
      Display.setBlank_self hloaded, Output.effects_bind, Display.performAll_append]
  · rfl

theorem Sound.journal_run_run (hs : s.Sound) (hc : s.consoles[id]? = some c)
    (hf : Console.Stepwise f) :
    ((s.run id f).run id g).journal =
      (s.run id fun surface c => f surface c >>= g surface).journal := by
  rw [journal_run (consoles_run_self hc), journal_run hc, journal_run hc, (hs.outcome hc hf).1,
    hs.surface_outcome hc hf, Output.effects_bind, Journal.recordAll_append]

/-- **Two runs of a console are one run** of both computations. -/
theorem Sound.run_run (hs : s.Sound) (hf : Console.Stepwise f) :
    (s.run id f).run id g = s.run id fun surface c => f surface c >>= g surface := by
  cases hc : s.consoles[id]? with
  | none => rw [run_of_none hc, run_of_none hc, run_of_none hc]
  | some c =>
      refine eq_of_parts (Array.ext_getElem? (hs.consoles_run_run hc hf))
        (Array.ext_getElem? (hs.displays_run_run hc hf)) ?_ ?_ (hs.journal_run_run hc hf)
      · rw [focused_run, focused_run, focused_run]
      · rw [settings_run, settings_run, settings_run]

/-! ## Bytes one at a time -/

/-- Sends bytes to a console one after the other. -/
def sends (s : Seat) (id : Nat) (bytes : List UInt8) : Seat :=
  bytes.foldl (fun s byte => s.send id byte) s

/-- Bytes sent one at a time, and whatever the console then runs, are one run of it. -/
theorem Sound.run_sends (bytes : List UInt8) :
    ∀ {s : Seat}, s.Sound → (s.sends id bytes).run id g =
      s.run id fun surface c => c.acceptAll surface bytes >>= g surface := by
  induction bytes with
  | nil =>
      intro s _
      simp only [Console.acceptAll, pure_bind]
      rfl
  | cons byte bytes ih =>
      -- The rest of the bytes is sent to the seat that the first byte leaves.
      intro s hs
      have hfirst := hs.run id (stepwise_accept byte)
      calc (s.sends id (byte :: bytes)).run id g
          = ((s.send id byte).sends id bytes).run id g := rfl
        _ = (s.send id byte).run id fun surface c => c.acceptAll surface bytes >>= g surface :=
            ih hfirst
        _ = s.run id fun surface c => c.accept surface byte >>= fun c =>
              c.acceptAll surface bytes >>= g surface := hs.run_run (stepwise_accept byte)
        _ = s.run id fun surface c => c.acceptAll surface (byte :: bytes) >>= g surface := by
            simp only [Console.acceptAll, bind_assoc]

/-- **A run is its bytes, one at a time.** Sending a run to a console, or to none, leaves the
very seat that sending its bytes one after the other and a flush leave: the same memory and
renditions of blanks, the same consoles with their reports, as many bells, and the same
register writes in the same order. -/
theorem sendRun_eq_sends {config : Config} (h : Reached config s) (id : Nat)
    (bytes : List UInt8) :
    s.sendRun id bytes = (s.sends id bytes).flush id := by
  calc s.sendRun id bytes
      = s.run id fun surface c => c.acceptAll surface bytes >>= fun c => c.flush surface := by
        simp only [sendRun, Console.acceptRun_eq]
    _ = (s.sends id bytes).flush id := (Sound.run_sends bytes h.sound).symm

/-- A run that changes the colour of blanks, crosses the end of a line and rings, on a
console in focus that has an escape sequence open. -/
theorem sendRun_eq_sends_twoPages :
    ∃ s, Reached twoPages s ∧
      s.consoles[1]?.map (·.escape) = some (.inBracket 4 0 .first) ∧ s.focused = 1 ∧
      s.sendRun 1 [0x31, 0x6D, 0x42, 0x43, 0x44, 0x45, 0x1B, 0x5B, 0x4B, 0x07] =
        (s.sends 1 [0x31, 0x6D, 0x42, 0x43, 0x44, 0x45, 0x1B, 0x5B, 0x4B, 0x07]).flush 1 := by
  have hreached : Reached twoPages _ :=
    ⟨_, [.focus 1, .sendRun 1 [0x41, 0x1B, 0x5B, 0x34]], rfl, rfl⟩
  exact ⟨_, hreached, by decide +kernel, rfl, sendRun_eq_sends hreached 1 _⟩

end TextConsole.Seat
