import ApiClient.Proofs.DocumentRoundTrip

namespace ApiClient

open Json

structure Part (α β : Type) where
  get? : α → Option β
  change : (β → β) → α → α

namespace Part

variable {α β γ : Type}

def whole : Part α α :=
  ⟨some, fun g => g⟩

def inside (p : Part α β) (q : Part β γ) : Part α γ :=
  ⟨fun a => (p.get? a).bind q.get?, fun g => p.change (q.change g)⟩

/-- Changing a part changes nothing but what it says. -/
structure IsLawful (p : Part α β) : Prop where
  get?_change (g : β → β) (a : α) : p.get? (p.change g a) = (p.get? a).map g
  change_change (f g : β → β) (a : α) : p.change f (p.change g a) = p.change (f ∘ g) a
  change_of_fixed {g : β → β} {a : α} {b : β} (ha : p.get? a = some b) (hg : g b = b) :
    p.change g a = a

theorem isLawful_whole : (whole : Part α α).IsLawful where
  get?_change g a := rfl
  change_change f g a := rfl
  change_of_fixed ha hg := by
    cases ha
    exact hg

theorem IsLawful.inside {p : Part α β} {q : Part β γ} (hp : p.IsLawful) (hq : q.IsLawful) :
    (p.inside q).IsLawful where
  get?_change g a := by
    simp only [Part.inside, hp.get?_change, Option.bind_map, Option.map_bind]
    exact congrArg (Option.bind _) (funext fun b => hq.get?_change g b)
  change_change f g a := by
    simp only [Part.inside, hp.change_change]
    exact congrArg (p.change · a) (funext fun b => hq.change_change f g b)
  change_of_fixed ha hg := by
    obtain ⟨b, hb, hc⟩ := Option.bind_eq_some_iff.1 ha
    exact hp.change_of_fixed hb (hq.change_of_fixed hc hg)

theorem IsLawful.restore {p : Part α β} (hp : p.IsLawful) {g : β → β} {a : α} {b : β}
    (ha : p.get? a = some b) : p.change (fun _ => b) (p.change g a) = a := by
  rw [hp.change_change]
  exact hp.change_of_fixed ha rfl

def field (get : α → β) (set : β → α → α) : Part α β :=
  ⟨fun a => some (get a), fun g a => set (g (get a)) a⟩

def present : Part (Option α) α :=
  ⟨id, Option.map⟩

structure Agree {δ : Type} (get : α → δ) (set : δ → α → α) : Prop where
  get_set (d : δ) (a : α) : get (set d a) = d
  set_set (d d' : δ) (a : α) : set d (set d' a) = set d a
  set_get (a : α) : set (get a) a = a

theorem Agree.isLawful_field {get : α → β} {set : β → α → α} (h : Agree get set) :
    (field get set).IsLawful where
  get?_change g a := congrArg some (h.get_set _ a)
  change_change f g a := by
    simp only [field, h.set_set, h.get_set]
    rfl
  change_of_fixed {g a b} ha hg := by
    cases ha
    exact (congrArg (set · a) hg).trans (h.set_get a)

theorem isLawful_present : (present : Part (Option α) α).IsLawful where
  get?_change g a := rfl
  change_change f g a := Option.map_map f g a
  change_of_fixed {g a b} ha hg := by
    have hsome : a = some b := ha
    rw [hsome]
    exact congrArg some hg

def entry (key : String) : Part (List (String × α)) α :=
  ⟨fun entries => entries.lookup key, go⟩
where
  go (g : α → α) : List (String × α) → List (String × α)
    | [] => []
    | (k, a) :: rest => if k = key then (k, g a) :: rest else (k, a) :: go g rest

def item (i : Nat) : Part (List α) α :=
  ⟨fun items => items[i]?, fun g items => items.modify i g⟩

theorem isLawful_entry (key : String) : (entry key : Part (List (String × α)) α).IsLawful where
  get?_change g entries := by
    induction entries with
    | nil => rfl
    | cons e rest ih =>
      obtain ⟨k, a⟩ := e
      simp only [entry, entry.go] at ih ⊢
      split
      · next hk => simp [hk]
      · next hk =>
        rw [lookup_cons_of_ne (Ne.symm hk), lookup_cons_of_ne (Ne.symm hk), ih]
  change_change f g entries := by
    induction entries with
    | nil => rfl
    | cons e rest ih =>
      obtain ⟨k, a⟩ := e
      simp only [entry, entry.go] at ih ⊢
      split
      · next hk => simp [entry.go, hk]
      · next hk => simp [entry.go, hk, ih]
  change_of_fixed {g entries b} ha hg := by
    induction entries with
    | nil => rfl
    | cons e rest ih =>
      obtain ⟨k, a⟩ := e
      simp only [entry, entry.go] at ih ha ⊢
      split
      · next hk =>
        rw [hk, List.lookup_cons_self] at ha
        cases ha
        rw [hg]
      · next hk =>
        rw [lookup_cons_of_ne (Ne.symm hk)] at ha
        rw [ih ha]

theorem isLawful_item (i : Nat) : (item i : Part (List α) α).IsLawful where
  get?_change g items := by simp [item]
  change_change f g items := by simp [item, List.modify_modify_eq]
  change_of_fixed {g items b} ha hg := by
    refine List.ext_getElem? fun j => ?_
    have hi : items[i]? = some b := ha
    simp only [item, List.getElem?_modify]
    split
    · next hj =>
      subst hj
      simp [hi, hg]
    · simp

end Part

/-- Two trees of one form: arrays, or objects that are the same reference or none. -/
inductive Json.Alike : Json → Json → Prop
  | array {items items' : List Json} : Alike (.array items) (.array items')
  | object {entries entries' : List (String × Json)}
      (h : (object entries).reference? = (object entries').reference?) :
      Alike (.object entries) (.object entries')

theorem Json.Alike.reference?_eq {v w : Json} (h : Alike v w) : v.reference? = w.reference? := by
  cases h with
  | array => rfl
  | object h => exact h

theorem Json.Alike.bind_string? {v w : Json} (h : Alike v w) : v.string? = w.string? := by
  cases h <;> rfl

/-- Where the part of a tree is read as `b`, any other tree of the form of the part that is read as
`g b` gives the same reading with `g` applied to the part. -/
def Json.Follows {α β : Type} (read : Json → Option α) (sub : Json → Option β) (tree : Json → Json)
    (part : Part α β) : Prop :=
  ∀ {v a b}, read (tree v) = some a → part.get? a = some b → sub v = some b ∧
    ∀ {w g}, Alike v w → sub w = some (g b) →
      Alike (tree v) (tree w) ∧ read (tree w) = some (part.change g a)

namespace Json

variable {α β γ : Type} {read : Json → Option α} {mid : Json → Option β} {sub : Json → Option γ}

theorem follows_whole : Follows read read id .whole := by
  rintro v a _ hv hb
  cases hb
  exact ⟨hv, fun halike hw => ⟨halike, hw⟩⟩

theorem Follows.inside {tree tree' : Json → Json} {p : Part α β} {q : Part β γ}
    (hp : Follows read mid tree p) (hq : Follows mid sub tree' q) :
    Follows read sub (tree ∘ tree') (p.inside q) := by
  intro v a c hv hc
  obtain ⟨b, hb, hc⟩ := Option.bind_eq_some_iff.1 hc
  obtain ⟨hmid, houter⟩ := hp hv hb
  obtain ⟨hsub, hinner⟩ := hq hmid hc
  refine ⟨hsub, fun {w g} halike hw => ?_⟩
  obtain ⟨halike', hw'⟩ := hinner halike hw
  exact houter halike' hw'

theorem mapM_append_cons {before after : List Json} {v : Json} {l : List α} :
    (before ++ v :: after).mapM read = some l ↔ ∃ as a bs, before.mapM read = some as ∧
      read v = some a ∧ after.mapM read = some bs ∧ l = as ++ a :: bs := by
  simp only [List.mapM_append, List.mapM_cons, Option.bind_eq_bind, Option.bind_eq_some_iff,
    Option.pure_def, Option.some.injEq]
  constructor
  · rintro ⟨as, has, _, ⟨a, ha, bs, hbs, rfl⟩, rfl⟩
    exact ⟨as, a, bs, has, ha, hbs, rfl⟩
  · rintro ⟨as, a, bs, has, ha, hbs, rfl⟩
    exact ⟨as, has, _, ⟨a, ha, bs, hbs, rfl⟩, rfl⟩

theorem length_of_mapM {l : List Json} {as : List α} (h : l.mapM read = some as) :
    as.length = l.length := by
  induction l generalizing as with
  | nil =>
    cases h
    rfl
  | cons v rest ih =>
    rw [← List.nil_append (v :: rest)] at h
    obtain ⟨_, a, bs, hnil, -, hbs, rfl⟩ := mapM_append_cons.1 h
    cases hnil
    simp [ih hbs]

theorem follows_item (before after : List Json) :
    Follows (listOf? read) read (fun v => .array (before ++ v :: after)) (.item before.length) := by
  intro v l b hl hb
  obtain ⟨as, a, bs, has, ha, hbs, rfl⟩ := mapM_append_cons.1 hl
  have hlength := length_of_mapM has
  have hab : a = b := by simpa [Part.item, ← hlength] using hb
  subst hab
  refine ⟨ha, fun {w g} _ hw => ⟨.array, ?_⟩⟩
  refine mapM_append_cons.2 ⟨as, g a, bs, has, hw, hbs, ?_⟩
  simp [Part.item, ← hlength, List.modify_eq_take_cons_drop]

theorem readEntries?_append_cons {before after : List (String × Json)} {key : String} {v : Json}
    {l : List (String × α)} :
    readEntries? read (before ++ (key, v) :: after) = some l ↔ ∃ as a bs,
      readEntries? read before = some as ∧ read v = some a ∧ readEntries? read after = some bs ∧
        l = as ++ (key, a) :: bs := by
  induction before generalizing l with
  | nil =>
    simp only [List.nil_append, readEntries?, Option.bind_eq_bind, Option.bind_eq_some_iff,
      Option.some.injEq]
    constructor
    · rintro ⟨a, ha, bs, hbs, rfl⟩
      exact ⟨[], a, bs, rfl, ha, hbs, rfl⟩
    · rintro ⟨_, a, bs, rfl, ha, hbs, rfl⟩
      exact ⟨a, ha, bs, hbs, rfl⟩
  | cons first rest ih =>
    obtain ⟨k, w⟩ := first
    simp only [List.cons_append, readEntries?, Option.bind_eq_bind, Option.bind_eq_some_iff, ih,
      Option.some.injEq]
    constructor
    · rintro ⟨b, hb, _, ⟨as, a, bs, has, ha, hbs, rfl⟩, rfl⟩
      exact ⟨(k, b) :: as, a, bs, ⟨b, hb, as, has, rfl⟩, ha, hbs, rfl⟩
    · rintro ⟨_, a, bs, ⟨b, hb, as, has, rfl⟩, ha, hbs, rfl⟩
      exact ⟨b, hb, _, ⟨as, a, bs, has, ha, hbs, rfl⟩, rfl⟩

theorem change_insertEntry_self (key : String) (g : α → α) (a : α) (map : List (String × α)) :
    (Part.entry key).change g (insertEntry key a map) = insertEntry key (g a) map := by
  induction map with
  | nil => simp [Part.entry, Part.entry.go, insertEntry]
  | cons first rest ih =>
    obtain ⟨k, b⟩ := first
    simp only [Part.entry, insertEntry] at ih ⊢
    split
    · next hk => simp [Part.entry.go, hk]
    · next hk => simp [Part.entry.go, hk, ih]

theorem change_insertEntry_of_ne {key k : String} (hk : k ≠ key) (g : α → α) (a : α)
    (map : List (String × α)) : (Part.entry key).change g (insertEntry k a map) =
      insertEntry k a ((Part.entry key).change g map) := by
  induction map with
  | nil => simp [Part.entry, Part.entry.go, insertEntry, hk]
  | cons first rest ih =>
    obtain ⟨n, b⟩ := first
    simp only [Part.entry, insertEntry] at ih ⊢
    by_cases hn : n = k
    · subst hn
      simp [Part.entry.go, insertEntry, hk]
    · by_cases hkey : n = key
      · subst hkey
        simp [Part.entry.go, insertEntry, hn]
      · simp [Part.entry.go, insertEntry, hn, hkey, ih]

/-- Of several values under one key the last is the one that stays. -/
theorem mapOfEntries_append_cons {key : String} {as bs : List (String × α)}
    (hbs : key ∉ bs.map Prod.fst) (a : α) (g : α → α) :
    (mapOfEntries (as ++ (key, a) :: bs)).lookup key = some a ∧
      mapOfEntries (as ++ (key, g a) :: bs) =
        (Part.entry key).change g (mapOfEntries (as ++ (key, a) :: bs)) := by
  have later : ∀ map : List (String × α), map.lookup key = some a →
      (bs.foldl (fun map e => insertEntry e.1 e.2 map) map).lookup key = some a ∧
        bs.foldl (fun map e => insertEntry e.1 e.2 map) ((Part.entry key).change g map) =
          (Part.entry key).change g (bs.foldl (fun map e => insertEntry e.1 e.2 map) map) := by
    induction bs with
    | nil => exact fun map hmap => ⟨hmap, rfl⟩
    | cons first rest ih =>
      intro map hmap
      rw [List.map_cons, List.mem_cons, not_or] at hbs
      rw [List.foldl_cons, List.foldl_cons, ← change_insertEntry_of_ne (Ne.symm hbs.1)]
      refine ih hbs.2 _ ?_
      rw [lookup_insertEntry, if_neg hbs.1, hmap]
  simp only [mapOfEntries, List.foldl_append, List.foldl_cons]
  rw [← change_insertEntry_self]
  exact later _ (by rw [lookup_insertEntry, if_pos rfl])

theorem alike_append_cons {before after : List (String × Json)} {key : String} {v w : Json}
    (h : Alike v w) :
    Alike (.object (before ++ (key, v) :: after)) (.object (before ++ (key, w) :: after)) := by
  refine .object ?_
  simp only [reference?, get?, List.lookup_append, List.lookup_cons]
  split
  · cases before.lookup "$ref" with
    | none => exact h.bind_string?
    | some _ => rfl
  · rfl

theorem follows_entry {key : String} (before : List (String × Json))
    {after : List (String × Json)} (h : key ∉ after.map Prod.fst) :
    Follows (mapOf? read) read (fun v => .object (before ++ (key, v) :: after)) (.entry key) := by
  intro v map b hmap hb
  obtain ⟨l, hl, rfl⟩ := Option.map_eq_some_iff.1 hmap
  obtain ⟨as, a, bs, has, ha, hbs, rfl⟩ := readEntries?_append_cons.1 hl
  rw [← keys_readEntries? hbs] at h
  have hab : a = b := Option.some.inj ((mapOfEntries_append_cons h a id).1.symm.trans hb)
  subst hab
  refine ⟨ha, fun {w g} halike hw => ⟨alike_append_cons halike, ?_⟩⟩
  · rw [mapOf?, readEntries?_append_cons.2 ⟨as, g a, bs, has, hw, hbs, rfl⟩, Option.map_some,
      (mapOfEntries_append_cons h a g).2]

end Json

def RefOr.inPlace {α : Type} : Part (RefOr α) α where
  get?
    | .item a => some a
    | .reference _ => none
  change g
    | .item a => .item (g a)
    | .reference path => .reference path

def SchemaNode.inPlace : Part SchemaNode Schema where
  get? := SchemaNode.schema?
  change g
    | .schema s => .schema (g s)
    | node => node

theorem RefOr.isLawful_inPlace {α : Type} : (inPlace : Part (RefOr α) α).IsLawful where
  get?_change g node := by cases node <;> rfl
  change_change f g node := by cases node <;> rfl
  change_of_fixed {g node b} ha hg := by
    cases node with
    | reference path => rfl
    | item a =>
      cases ha
      exact congrArg item hg

theorem SchemaNode.isLawful_inPlace : inPlace.IsLawful where
  get?_change g node := by cases node <;> rfl
  change_change f g node := by cases node <;> rfl
  change_of_fixed {g node b} ha hg := by
    cases node with
    | schema s =>
      cases ha
      exact congrArg schema hg
    | _ => rfl

abbrev SchemaNode.ofJson? (v : Json) : Option SchemaNode :=
  some (SchemaNode.ofJson v)

def Schema.ofJson? : Json → Option Schema
  | .object entries => Schema.ofEntries? entries
  | _ => none

namespace Json

variable {α : Type} {read : Json → Option α}

theorem follows_refOr : Follows (RefOr.ofJson? read) read id RefOr.inPlace := by
  intro v node a hv ha
  cases node with
  | reference path => cases ha
  | item a' =>
    cases ha
    rw [id, RefOr.ofJson?] at hv
    split at hv
    · cases hv
    · next href =>
      obtain ⟨_, hread, heq⟩ := Option.map_eq_some_iff.1 hv
      cases heq
      refine ⟨hread, fun {w g} halike hw => ⟨halike, ?_⟩⟩
      rw [id, RefOr.ofJson?, ← halike.reference?_eq, href, hw]
      rfl

theorem reference?_eq_some {entries : List (String × Json)} {path : String} :
    (object entries).reference? = some path ↔ entries.lookup "$ref" = some (.string path) := by
  rw [reference?, get?, Option.bind_eq_some_iff]
  constructor
  · rintro ⟨v, hv, hpath⟩
    cases v with
    | string text =>
      cases hpath
      exact hv
    | _ => cases hpath
  · exact fun h => ⟨_, h, rfl⟩

theorem follows_schema : Follows SchemaNode.ofJson? Schema.ofJson? id SchemaNode.inPlace := by
  intro v node s hv hs
  cases hv
  cases v with
  | object entries =>
    obtain ⟨path, -, hnode⟩ | ⟨s', href, hread, hnode⟩ | hnode :=
      SchemaNode.ofJson_object_cases entries
    · simp [SchemaNode.inPlace, SchemaNode.schema?, hnode] at hs
    · have hss : s' = s := by simpa [SchemaNode.inPlace, SchemaNode.schema?, hnode] using hs
      subst hss
      refine ⟨hread, fun {w g} halike hw => ⟨halike, ?_⟩⟩
      cases halike with
      | @object _ entries' hsame =>
        have hnode' : SchemaNode.ofJson (.object entries') = .schema (g s') := by
          rw [SchemaNode.ofJson]
          split
          · next path hpath =>
            rw [← reference?_eq_some] at hpath
            exact absurd (reference?_eq_some.1 (hsame.trans hpath)) (href path)
          · rw [show Schema.ofEntries? entries' = some (g s') from hw]
        rw [id, SchemaNode.ofJson?, hnode', id, hnode]
        rfl
    · simp [SchemaNode.inPlace, SchemaNode.schema?, hnode] at hs
  | _ => cases hs

end Json

end ApiClient
