import TextConsole.Json.Record
import Mathlib.Data.List.Forall2
import Mathlib.Data.List.Nodup

/-!
# Records are read as they are written

What it is for a value to write a record (`Record.Writes`), said without an order of reading.
An object writes a record if each of its members that has the name of a field writes that
field, no field is written twice, and the fields that are left out have their defaults. Other
members may stand anywhere and hold anything, as long as their keys are texts. An array writes
the first fields in their order, and the others have their defaults.

A reader of fields is faithful if each field is read as it is written and leaves the others
alone (`Record.Faithful`). Then a record is read back from every value that writes it
(`Faithful.read_eq`): while the members of an object are read, the fields that were seen are
those of the record, and the others still have their defaults.
-/

namespace TextConsole.Json

/-- A field as it is seen from outside: its name, its value in a record, and the JSON values that
write it. -/
structure Aspect (α : Type) where
  {Value : Type}
  name : String
  get : α → Value
  writes : Value → Json → Prop

namespace Record

variable {α β : Type} {aspects : List (Aspect α)} {default r q : α}

/-! ## What writes a record -/

/-- Whether the members of an object write a record, where `default` is the record of defaults. -/
structure MembersWrite (aspects : List (Aspect α)) (default r : α) (members : List (Text × Json)) :
    Prop where
  texts : ∀ m ∈ members, m.1 ≠ none
  written : ∀ a ∈ aspects, ∀ v, (some a.name, v) ∈ members → a.writes (a.get r) v
  once : members.Pairwise fun m m' => m.1 = m'.1 → ∀ a ∈ aspects, m.1 ≠ some a.name
  leftOut : ∀ a ∈ aspects, (∀ v, (some a.name, v) ∉ members) → a.get r = a.get default

/-- Whether the items of an array write the fields of a record in turn. -/
def ItemsWrite (default r : α) : List (Aspect α) → List Json → Prop
  | aspects, [] => ∀ a ∈ aspects, a.get r = a.get default
  | [], _ :: _ => False
  | a :: aspects, v :: items => a.writes (a.get r) v ∧ ItemsWrite default r aspects items

/-- Only the defaults of the fields that are written or left out count. -/
theorem ItemsWrite.congr {q' : α} {as : List (Aspect α)} {items : List Json}
    (h : ItemsWrite q r as items) (hsame : ∀ a ∈ as, a.get q' = a.get q) :
    ItemsWrite q' r as items := by
  induction as generalizing items with
  | nil =>
      cases items with
      | nil => exact fun a ha => absurd ha (by simp)
      | cons v items => exact h
  | cons a as ih =>
      obtain ⟨_, hrest⟩ := List.forall_mem_cons.mp hsame
      cases items with
      | nil => exact fun b hb => (h b hb).trans (hsame b hb).symm
      | cons v items => exact ⟨h.1, ih h.2 hrest⟩

/-- Whether a value writes a record. -/
def Writes (aspects : List (Aspect α)) (default r : α) : Json → Prop
  | obj members => MembersWrite aspects default r members
  | arr items => ItemsWrite default r aspects items
  | _ => False

/-! ## Faithful readers -/

/-- Whether a field is read as it is written, and the other fields stay as they are. -/
structure Reads (aspects : List (Aspect α)) (f : RecordField α) (a : Aspect α) : Prop where
  name : f.name = a.name
  read : ∀ (q : α) (x : a.Value) (v : Json), a.writes x v →
    ∃ q', f.read q v = some q' ∧ a.get q' = x ∧ ∀ b ∈ aspects, b.name ≠ a.name → b.get q' = b.get q

/-- Whether the fields of a record are read as they are written, and are all that there is to
the record. -/
structure Faithful (fields : List (RecordField α)) (aspects : List (Aspect α)) : Prop where
  reads : List.Forall₂ (Reads aspects) fields aspects
  nodup : (aspects.map Aspect.name).Nodup
  ext : ∀ {r r' : α}, (∀ a ∈ aspects, a.get r = a.get r') → r = r'

/-- A field that is put into the record once its value is read. -/
theorem Reads.of_put {name : String} {read : Json → Option β} {put : α → β → α} {get : α → β}
    {writes : β → Json → Prop} (hread : ∀ x v, writes x v → read v = some x)
    (hget : ∀ q x, get (put q x) = x)
    (hothers : ∀ q x, ∀ b ∈ aspects, b.name ≠ name → b.get (put q x) = b.get q) :
    Reads aspects ⟨name, fun q v => (read v).map (put q)⟩ ⟨name, get, writes⟩ where
  name := rfl
  read := by
    intro q x v hv
    refine ⟨put q x, ?_, hget q x, hothers q x⟩
    show (read v).map (put q) = _
    rw [hread x v hv, Option.map_some]

namespace Faithful

variable {fields : List (RecordField α)}

/-- Fields with the same name are the same. -/
theorem eq_of_name_eq (hf : Faithful fields aspects) {a b : Aspect α} (ha : a ∈ aspects)
    (hb : b ∈ aspects) (h : a.name = b.name) : a = b :=
  List.inj_on_of_nodup_map hf.nodup ha hb h

/-- A name is found if it is the name of a field. -/
theorem field?_cases (hf : Faithful fields aspects) (key : String) :
    (field? fields key = none ∧ ∀ a ∈ aspects, a.name ≠ key) ∨
      ∃ f, field? fields key = some f ∧ ∃ a ∈ aspects, a.name = key ∧ Reads aspects f a := by
  have search : ∀ {fs : List (RecordField α)} {as : List (Aspect α)},
      List.Forall₂ (Reads aspects) fs as →
        (field? fs key = none ∧ ∀ a ∈ as, a.name ≠ key) ∨
          ∃ f, field? fs key = some f ∧ ∃ a ∈ as, a.name = key ∧ Reads aspects f a := by
    intro fs as h
    induction h with
    | nil => exact Or.inl ⟨rfl, by simp⟩
    | @cons f a fs as hfirst _ ih =>
        by_cases hname : a.name = key
        · refine Or.inr ⟨f, ?_, a, List.mem_cons_self, hname, hfirst⟩
          exact List.find?_cons_of_pos (by simpa [hfirst.name] using hname)
        · have hskip : field? (f :: fs) key = field? fs key :=
            List.find?_cons_of_neg (by simpa [hfirst.name] using hname)
          rw [hskip]
          rcases ih with ⟨hnone, hnames⟩ | ⟨g, hg, b, hb, hrest⟩
          · exact Or.inl ⟨hnone, List.forall_mem_cons.mpr ⟨hname, hnames⟩⟩
          · exact Or.inr ⟨g, hg, b, List.mem_cons_of_mem _ hb, hrest⟩
  exact search hf.reads

/-! ## Objects and arrays -/

/-- Members that are no fields are skipped, and fields are read whatever their order. What has
been read so far takes the place of the defaults. -/
theorem readMembers_eq (hf : Faithful fields aspects) {members : List (Text × Json)} :
    ∀ {seen : List String} {q : α}, MembersWrite aspects q r members →
      (∀ a ∈ aspects, a.name ∈ seen → ∀ v, (some a.name, v) ∉ members) →
        readMembers fields seen q members = some r := by
  induction members with
  | nil =>
      intro seen q h _
      rw [readMembers, hf.ext fun a ha => (h.leftOut a ha (by simp)).symm]
  | cons m members ih =>
      obtain ⟨key, v⟩ := m
      intro seen q h hseen
      obtain ⟨honce, hrestOnce⟩ := List.pairwise_cons.mp h.once
      obtain ⟨key, rfl⟩ := Option.ne_none_iff_exists'.mp (h.texts _ List.mem_cons_self)
      have htexts : ∀ m ∈ members, m.1 ≠ none := fun m hm => h.texts m (List.mem_cons_of_mem _ hm)
      have hwritten : ∀ a ∈ aspects, ∀ v, (some a.name, v) ∈ members → a.writes (a.get r) v :=
        fun a ha v hv => h.written a ha v (List.mem_cons_of_mem _ hv)
      have hlater : ∀ a ∈ aspects, a.name ∈ seen → ∀ v, (some a.name, v) ∉ members :=
        fun a ha hin v hv => hseen a ha hin v (List.mem_cons_of_mem _ hv)
      -- A field that is neither this member nor a later one was left out.
      have hleftOut : ∀ a ∈ aspects, a.name ≠ key → (∀ v, (some a.name, v) ∉ members) →
          a.get r = a.get q := by
        intro a ha hname hout
        refine h.leftOut a ha fun v hv => ?_
        rcases List.mem_cons.mp hv with heq | hv
        · exact hname (Option.some.inj (congrArg Prod.fst heq))
        · exact hout v hv
      rw [readMembers]
      rcases hf.field?_cases key with ⟨hnone, hnames⟩ | ⟨f, hfound, a, ha, rfl, hreads⟩
      · rw [hnone]
        exact ih ⟨htexts, hwritten, hrestOnce, fun a ha => hleftOut a ha (hnames a ha)⟩ hlater
      -- A field is read once: it was not seen before, and does not come again.
      · have hfresh : a.name ∉ seen := fun hin => hseen a ha hin v List.mem_cons_self
        have hgone : ∀ v', (some a.name, v') ∉ members := fun v' hv' =>
          honce _ hv' rfl a ha rfl
        obtain ⟨q', hread, hget, hothers⟩ :=
          hreads.read q _ v (h.written a ha v List.mem_cons_self)
        rw [hfound]
        simp only [if_neg hfresh, hread]
        refine ih ⟨htexts, hwritten, hrestOnce, ?_⟩ ?_
        · intro b hb hout
          by_cases hname : b.name = a.name
          · rw [hf.eq_of_name_eq hb ha hname, hget]
          · rw [hothers b hb hname]
            exact hleftOut b hb hname hout
        · intro b hb hin
          rcases List.mem_cons.mp hin with hname | hin
          · rw [hname]
            exact hgone
          · exact hlater b hb hin

/-- The items of an array are the first fields. -/
theorem readItems_eq (hf : Faithful fields aspects) {fs : List (RecordField α)}
    {as : List (Aspect α)} (hreads : List.Forall₂ (Reads aspects) fs as) :
    ∀ {items : List Json} {q : α}, (∀ a ∈ as, a ∈ aspects) → (as.map Aspect.name).Nodup →
      (∀ a ∈ aspects, a ∉ as → a.get q = a.get r) → ItemsWrite q r as items →
        readItems q fs items = some r := by
  induction hreads with
  | nil =>
      intro items q _ _ hdone h
      cases items with
      | nil => rw [readItems, hf.ext fun a ha => hdone a ha (by simp)]
      | cons v items => exact h.elim
  | @cons f a fs as hfirst _ ih =>
      intro items q has hnodup hdone h
      cases items with
      | nil =>
          have heq : q = r := by
            refine hf.ext fun b hb => ?_
            by_cases hb' : b ∈ a :: as
            · exact (h b hb').symm
            · exact hdone b hb hb'
          rw [readItems, heq]
      | cons v items =>
          obtain ⟨hwrites, hrest⟩ := h
          obtain ⟨ha, has⟩ := List.forall_mem_cons.mp has
          obtain ⟨hnew, hnodup⟩ := List.nodup_cons.mp hnodup
          obtain ⟨q', hread, hget, hothers⟩ := hfirst.read q _ v hwrites
          rw [readItems, hread]
          refine ih has hnodup ?_ ?_
          · intro b hb hout
            by_cases hname : b.name = a.name
            · rw [hf.eq_of_name_eq hb ha hname, hget]
            · rw [hothers b hb hname]
              refine hdone b hb ?_
              rw [List.mem_cons, not_or]
              exact ⟨fun heq => hname (congrArg Aspect.name heq), hout⟩
          · refine hrest.congr fun b hb => hothers b (has b hb) ?_
            intro hname
            exact hnew (List.mem_map.mpr ⟨b, hb, hname⟩)

/-- **A record is read back from every value that writes it.** -/
theorem read_eq (hf : Faithful fields aspects) {v : Json} (h : Writes aspects default r v) :
    Record.read fields default v = some r := by
  cases v with
  | obj members => exact hf.readMembers_eq h fun _ _ hin => absurd hin (by simp)
  | arr items =>
      exact hf.readItems_eq hf.reads (fun _ ha => ha) hf.nodup (fun a ha hout => absurd ha hout) h
  | null | bool | num | str => exact h.elim

end Faithful

end Record

end TextConsole.Json
