import TextConsole.Document
import TextConsole.Proofs.Json.Parsing
import TextConsole.Proofs.Json.Records

/-!
# Configuration documents mean what they list

A document lists what a configuration has other than by default: objects with the fields of a
section in any order, or arrays with the first of them in their order, and anything else under
names that are no fields (`Config.Lists`). Every text that writes such a document is loaded as
that configuration, or refused for the fault that the configuration has
(`Config.ofText_of_lists`).

The name of a member has to be a text. A member that is no field and whose name is half of
a surrogate pair is not skipped, and the document is refused (`Config.halfName_refused`).
-/

namespace TextConsole

open Json (Aspect Text half_written)
open Json.Record (Faithful Reads)

namespace Config

/-! ## Values of fields -/

/-- A natural number of 64 bits is written as its decimal digits. -/
def ListsNatural (n : Nat) (v : Json) : Prop := n < Json.naturalLimit ∧ v = Json.ofNat n

def ListsBool (b : Bool) (v : Json) : Prop := v = Json.bool b

/-- A kind of display is written as its name, or as an object whose only member has that name and
nothing for a value. -/
def ListsKind (kind : DisplayKind) (v : Json) : Prop :=
  v = Json.ofString (kindName kind) ∨ v = Json.obj [(some (kindName kind), .null)]

theorem natural?_of_lists {n : Nat} {v : Json} (h : ListsNatural n v) : v.natural? = some n := by
  obtain ⟨hlt, rfl⟩ := h
  have hdigits : Json.isDigits (Nat.toDigits 10 n) = true := by
    have hne : Nat.toDigits 10 n ≠ [] := Nat.toDigits_ne_nil
    simp only [Json.isDigits, Bool.and_eq_true, Bool.not_eq_true', List.isEmpty_eq_false_iff,
      List.all_eq_true]
    exact ⟨hne, fun c hc => Nat.isDigit_of_mem_toDigits (by omega) (by omega) hc⟩
  have hvalue : Nat.ofDigitChars 10 (Nat.toDigits 10 n) 0 = n :=
    Nat.ofDigitChars_toDigits (by omega) (by omega)
  simp [Json.ofNat, Json.natural?, hdigits, hvalue, hlt]

theorem bool?_of_lists {b : Bool} {v : Json} (h : ListsBool b v) : v.bool? = some b := by
  subst h
  rfl

theorem kind?_of_lists {kind : DisplayKind} {v : Json} (h : ListsKind kind v) :
    kind? v = some kind := by
  rcases h with rfl | rfl <;> cases kind <;> rfl

/-! ## Sections -/

def screenAspects : List (Aspect Geometry) :=
  [⟨"columns", Geometry.columns, ListsNatural⟩, ⟨"rows", Geometry.rows, ListsNatural⟩]

def behaviorAspects : List (Aspect Behavior) :=
  [⟨"tab_width", Behavior.tabWidth, ListsNatural⟩,
   ⟨"line_wrap", Behavior.lineWrap, ListsBool⟩,
   ⟨"software_scroll", Behavior.softwareScroll, ListsBool⟩,
   ⟨"bell_enabled", Behavior.bellEnabled, ListsBool⟩,
   ⟨"newline_returns_carriage", Behavior.newlineReturnsCarriage, ListsBool⟩,
   ⟨"max_consoles", Behavior.maxConsoles, ListsNatural⟩]

def displayAspects : List (Aspect DisplayConfig) :=
  [⟨"kind", DisplayConfig.kind, ListsKind⟩,
   ⟨"capacity_words", DisplayConfig.capacity, ListsNatural⟩,
   ⟨"wrap_capable", DisplayConfig.wraps, ListsBool⟩,
   ⟨"font_upload", DisplayConfig.fontUpload, ListsBool⟩]

/-- Displays are listed in their order. -/
def ListsDisplays (displays : List DisplayConfig) (v : Json) : Prop :=
  ∃ items, v = .arr items ∧ List.Forall₂ (Json.Record.Writes displayAspects {}) displays items

def sectionAspects : List (Aspect Config) :=
  [⟨"screen", fun c => c.screen, Json.Record.Writes screenAspects {}⟩,
   ⟨"behavior", fun c => c.behavior, Json.Record.Writes behaviorAspects {}⟩,
   ⟨"displays", Config.displays, ListsDisplays⟩]

/-- Whether a document lists a configuration. -/
def Lists (c : Config) (v : Json) : Prop := Json.Record.Writes sectionAspects {} c v

theorem faithful_screen : Faithful screenFields screenAspects where
  reads := by
    refine .cons (.of_put (fun _ _ => natural?_of_lists) (fun _ _ => rfl) ?_)
      (.cons (.of_put (fun _ _ => natural?_of_lists) (fun _ _ => rfl) ?_) .nil)
    all_goals
      intro q x
      simp [screenAspects]
  nodup := by decide
  ext := by
    rintro ⟨columns, rows⟩ ⟨columns', rows'⟩ h
    simpa [screenAspects] using h

theorem faithful_behavior : Faithful behaviorFields behaviorAspects where
  reads := by
    refine .cons (.of_put (fun _ _ => natural?_of_lists) (fun _ _ => rfl) ?_)
      (.cons (.of_put (fun _ _ => bool?_of_lists) (fun _ _ => rfl) ?_)
      (.cons (.of_put (fun _ _ => bool?_of_lists) (fun _ _ => rfl) ?_)
      (.cons (.of_put (fun _ _ => bool?_of_lists) (fun _ _ => rfl) ?_)
      (.cons (.of_put (fun _ _ => bool?_of_lists) (fun _ _ => rfl) ?_)
      (.cons (.of_put (fun _ _ => natural?_of_lists) (fun _ _ => rfl) ?_) .nil)))))
    all_goals
      intro q x
      simp [behaviorAspects]
  nodup := by decide
  ext := by
    rintro ⟨⟩ ⟨⟩ h
    simpa [behaviorAspects] using h

theorem faithful_display : Faithful displayFields displayAspects where
  reads := by
    refine .cons (.of_put (fun _ _ => kind?_of_lists) (fun _ _ => rfl) ?_)
      (.cons (.of_put (fun _ _ => natural?_of_lists) (fun _ _ => rfl) ?_)
      (.cons (.of_put (fun _ _ => bool?_of_lists) (fun _ _ => rfl) ?_)
      (.cons (.of_put (fun _ _ => bool?_of_lists) (fun _ _ => rfl) ?_) .nil)))
    all_goals
      intro q x
      simp [displayAspects]
  nodup := by decide
  ext := by
    rintro ⟨⟩ ⟨⟩ h
    simpa [displayAspects] using h

theorem displays?_of_lists {displays : List DisplayConfig} {v : Json}
    (h : ListsDisplays displays v) : displays? v = some displays := by
  obtain ⟨items, rfl, hitems⟩ := h
  rw [displays?]
  induction hitems with
  | nil => rfl
  | cons hfirst _ ih =>
      rw [List.mapM_cons, faithful_display.read_eq hfirst, ih]
      rfl

theorem faithful_sections : Faithful sections sectionAspects where
  reads := by
    refine .cons (.of_put (fun _ _ => faithful_screen.read_eq) (fun _ _ => rfl) ?_)
      (.cons (.of_put (fun _ _ => faithful_behavior.read_eq) (fun _ _ => rfl) ?_)
      (.cons (.of_put (fun _ _ => displays?_of_lists) (fun _ _ => rfl) ?_) .nil))
    all_goals
      intro q x
      simp [sectionAspects]
  nodup := by decide
  ext := by
    rintro ⟨⟨screen, behavior⟩, displays⟩ ⟨⟨screen', behavior'⟩, displays'⟩ h
    simpa [sectionAspects, and_assoc] using h

/-! ## Documents -/

/-- **A document means what it lists.** Of every text that writes a document, what is loaded is
the configuration that the document lists, or the fault of that configuration. -/
theorem ofText_of_lists {c : Config} {v : Json} {text : String} (hc : Lists c v)
    (htext : Json.Writes v text) :
    ofText text =
      match c.validate with
      | .ok () => .ok c
      | .error e => .error (.invalid e) := by
  have hread : (Json.parse? text).bind ofJson? = some c := by
    rw [htext.parse?_eq, Option.bind_some]
    exact faithful_sections.read_eq hc
  rw [ofText, hread]
  cases hvalid : c.validate <;> simp [hvalid]

/-- A screen as an array, and a section with white space, a tab width whose name is spelled with
a unit, and a member that is no field and holds half of a surrogate pair. -/
theorem ofText_of_lists_halfInside :
    ofText "[[7,2],\x7b \"x\":\"\\ud800\",\"\\u0074ab_width\":4\x7d]" =
      .ok { screen := ⟨7, 2⟩, behavior := { tabWidth := 4 } } := by
  have hc : Lists { screen := ⟨7, 2⟩, behavior := { tabWidth := 4 } }
      (.arr [.arr [.ofNat 7, .ofNat 2],
        .obj [(some "x", .str none), (some "tab_width", .ofNat 4)]]) := by
    have hbehavior : Json.Record.MembersWrite behaviorAspects {} { tabWidth := 4 }
        [(some "x", .str none), (some "tab_width", .ofNat 4)] := by
      refine ⟨by simp, ?_, ?_, ?_⟩ <;>
        simp [behaviorAspects, ListsNatural, Json.naturalLimit]
    have hdisplays : ∀ a ∈ [(⟨"displays", Config.displays, ListsDisplays⟩ : Aspect Config)],
        a.get { screen := ⟨7, 2⟩, behavior := { tabWidth := 4 } } = a.get {} := by simp
    exact ⟨⟨⟨by decide, rfl⟩, ⟨by decide, rfl⟩, fun _ h => absurd h List.not_mem_nil⟩, hbehavior,
      hdisplays⟩
  have hx : (Json.Token.str (some "x")).Written ['"', 'x', '"'] :=
    .str (.plain ['x'] (by simp)) (.plain ['x'])
  have htab : (Json.Token.str (some "tab_width")).Written
      ('"' :: (['\\', 'u', '0', '0', '7', '4'] ++ "ab_width".toList ++ ['"'])) :=
    .str (.cons (@Json.Piece.Written.code '0' '0' '7' '4' 0 0 7 4 rfl rfl rfl rfl)
      (.plain "ab_width".toList (by simp))) (.unit rfl rfl (.plain "ab_width".toList))
  have htext : Json.Writes (.arr [.arr [.ofNat 7, .ofNat 2],
      .obj [(some "x", .str none), (some "tab_width", .ofNat 4)]])
      "[[7,2],\x7b \"x\":\"\\ud800\",\"\\u0074ab_width\":4\x7d]" :=
    .mark rfl (.mark rfl (.token (Json.written_ofNat 7) (.mark rfl (.token (Json.written_ofNat 2)
      (.mark rfl (.mark rfl (.mark rfl (.space rfl (.token hx (.mark rfl (.token half_written
        (.mark rfl (.token htab (.mark rfl (.token (Json.written_ofNat 4) (.mark rfl (.mark rfl
          (.done fun _ h => absurd h List.not_mem_nil))))))))))))))))))
  exact ofText_of_lists hc htext

/-- **A name that is no text is not skipped.** The document leaves everything out and has one
member that is no field, so by all that it lists it is the default configuration. -/
theorem halfName_refused :
    Json.Writes (.obj [(none, .num "0")]) "\x7b\"\\ud800\":0\x7d" ∧
      ({} : Config).validate = .ok () ∧ ofText "\x7b\"\\ud800\":0\x7d" = .error .malformed := by
  have htext : Json.Writes (.obj [(none, .num "0")]) "\x7b\"\\ud800\":0\x7d" :=
    .mark rfl (.token half_written (.mark rfl (.token (Json.written_ofNat 0) (.mark rfl
      (.done fun _ h => absurd h List.not_mem_nil)))))
  refine ⟨htext, rfl, ?_⟩
  rw [ofText, htext.parse?_eq]
  rfl

end Config

end TextConsole
