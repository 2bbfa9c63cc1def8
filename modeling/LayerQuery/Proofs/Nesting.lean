import LayerQuery.Proofs.RoundTrip
/-!
# Nested links and the depth limit

Links come back from their texts like any other value, up to a point. The
document of a link always has a list for the links inside, also where
the text that was read had none; so it may be one list deeper than that
text. What `Link.height` counts is how many links lie inside one another:
the document of a link is twice as deep, and the document that a link was
read from lacks at most the innermost list (`height_le_of_readWithin`).

With the limit on the depth of documents this settles which links come
back (`ofText_toText_nested`): all but those that are nested as deeply as
any text can nest them.
-/

namespace LayerQuery

open Json

namespace Relations

namespace Link

mutual

/-- How many links lie inside one another, the outermost counted. -/
def height : Link → Nat
  | ⟨_, _, links⟩ => heightAll links + 1

/-- The height of the highest of several links. -/
def heightAll : List Link → Nat
  | [] => 0
  | l :: ls => max l.height (heightAll ls)

end

theorem heightAll_le_iff {ls : List Link} {n : Nat} :
    heightAll ls ≤ n ↔ ∀ l ∈ ls, l.height ≤ n := by
  induction ls with
  | nil => simp [heightAll]
  | cons l ls ih => rw [heightAll, Nat.max_le, ih, List.forall_mem_cons]

theorem isSound_write (l : Link) : l.write.isSound = true := by
  induction l using inside_induction with
  | mk featureType name links ih =>
    have hlinks : (writeAll links).all Document.isSound = true := by
      rw [writeAll_eq_map, List.all_map, List.all_eq_true]
      exact ih
    have hnumber : (Codec.int64.write featureType).isSound = true := Codec.isSound_ofInt featureType
    have hname : (Codec.text.write name).isSound = true := rfl
    simp [write, Document.record, Document.list, Document.isSound, Document.membersSound,
      Document.allSound_eq_all, hnumber, hname, hlinks]

/-- The fields of a link are read in their order. -/
theorem read_codecOver_object (inner : Codec Link) (featureType : FeatureTypeId) (name : String)
    (relations : Document) :
    (codecOver inner).read
        (.record [("foreignFeatureType", Codec.int64.write featureType),
          ("foreignFeatureTypeName", Codec.text.write name), ("relations", relations)]) =
      ((Codec.list inner).read relations).map fun links => ⟨featureType, name, links⟩ := by
  have hkeeps : Codec.int64.Keeps 0 featureType := Codec.keeps_int64 featureType
  have hnumber := hkeeps.read_write
  have hname : Codec.text.read (Codec.text.write name) = .ok name := rfl
  cases hlinks : (Codec.list inner).read relations with
  | error e =>
    simp [codecOver, Fields.codec, Document.record, Fields.read, Fields.putAll, Fields.put,
      Fields.blank, Field.required, Field.defaulted, hnumber, hname, hlinks, bind, Except.bind,
      Except.map]
  | ok links =>
    simp [codecOver, Fields.codec, Document.record, Fields.read, Fields.putAll, Fields.put,
      Fields.blank, Fields.complete, Field.required, Field.defaulted, hnumber, hname, hlinks, bind,
      Except.bind, Except.map]

/-- If each link is read again just where it fits, so is a list of links. -/
theorem read_list_of_forall {inner : Codec Link} {links : List Link} {depth : Nat}
    (h : ∀ l ∈ links, inner.read (l.write.within depth) =
      if 2 * l.height ≤ depth then .ok l else .error .malformed) :
    (Codec.list inner).read ((Document.list (links.map write)).within (depth + 1)) =
      if 2 * heightAll links ≤ depth then .ok links else .error .malformed := by
  have hitems : inner.readItems (links.map fun l => l.write.within depth) =
      if 2 * heightAll links ≤ depth then .ok links else .error .malformed := by
    induction links with
    | nil => rfl
    | cons l links ih =>
      obtain ⟨hl, hlinks⟩ := List.forall_mem_cons.mp h
      have hmax : 2 * heightAll (l :: links) ≤ depth ↔
          2 * l.height ≤ depth ∧ 2 * heightAll links ≤ depth := by
        rw [heightAll]
        omega
      rw [List.map_cons, Codec.readItems, hl, ih hlinks]
      by_cases hfits : 2 * l.height ≤ depth
      · by_cases hrest : 2 * heightAll links ≤ depth
        · rw [if_pos hfits, if_pos hrest, if_pos (hmax.mpr ⟨hfits, hrest⟩)]
          rfl
        · rw [if_pos hfits, if_neg hrest, if_neg fun h => hrest (hmax.mp h).2]
          rfl
      · rw [if_neg hfits, if_neg fun h => hfits (hmax.mp h).1]
        rfl
  have hlist : (Document.list (links.map write)).within (depth + 1) =
      .array (links.map fun l => l.write.within depth) true := by
    rw [Document.list, Document.within, Document.allWithin_eq_map, List.map_map]
    rfl
  have hread (items : List Document) : (Codec.list inner).read (.array items true) =
      (inner.readItems items).bind fun links => .ok links := rfl
  rw [hlist, hread, hitems]
  split <;> rfl

/-- **A link is read again from its document just where the document is
not cut off.** -/
theorem readWithin_write (l : Link) {levels depth : Nat} (hlevels : l.height ≤ levels) :
    readWithin levels (l.write.within depth) =
      if 2 * l.height ≤ depth then .ok l else .error .malformed := by
  induction l using inside_induction generalizing levels depth with
  | mk featureType name links ih =>
    obtain ⟨levels, rfl⟩ : ∃ n, levels = n + 1 := by
      rw [height] at hlevels
      exact ⟨levels - 1, by omega⟩
    have hinside : ∀ l ∈ links, l.height ≤ levels :=
      heightAll_le_iff.mp (Nat.le_of_succ_le_succ hlevels)
    have hwrite (n : Nat) : (write ⟨featureType, name, links⟩).within (n + 1) =
        .record [("foreignFeatureType", Codec.int64.write featureType),
          ("foreignFeatureTypeName", Codec.text.write name),
          ("relations", (Document.list (links.map write)).within n)] := by
      rw [write, writeAll_eq_map]
      cases n <;> rfl
    have hread (n : Nat) :
        readWithin (levels + 1) ((write ⟨featureType, name, links⟩).within (n + 1)) =
          ((Codec.list ⟨readWithin levels, write⟩).read
            ((Document.list (links.map write)).within n)).map
              fun links => ⟨featureType, name, links⟩ := by
      rw [hwrite]
      exact read_codecOver_object _ featureType name _
    rw [height]
    -- the link is cut off, or its list is, or what is left is asked of the links inside
    match depth with
    | 0 =>
      rw [if_neg (by omega)]
      rfl
    | 1 =>
      rw [hread, if_neg (by omega)]
      rfl
    | n + 2 =>
      have hitems : ∀ l ∈ links, readWithin levels (l.write.within n) =
          if 2 * l.height ≤ n then .ok l else .error .malformed :=
        fun l hl => ih l hl (hinside l hl)
      have hfits : 2 * (heightAll links + 1) ≤ n + 2 ↔ 2 * heightAll links ≤ n := by omega
      rw [hread, read_list_of_forall hitems]
      simp only [hfits]
      split <;> rfl

theorem names_nodup (inner : Codec Link) :
    (Fields.cons (Field.required "foreignFeatureType" .int64)
      (.cons (.required "foreignFeatureTypeName" .text)
        (.cons (.defaulted "relations" (.list inner) []) .nil))).names.Nodup := by
  have hnames : ["foreignFeatureType", "foreignFeatureTypeName", "relations"].Nodup := by decide
  exact hnames

/-- A list of links is read from a list that is one level above them. -/
theorem heightAll_le_of_read {inner : Codec Link}
    (hinner : ∀ depth d l, inner.read (Document.within depth d) = .ok l → 2 * l.height ≤ depth + 1)
    {depth : Nat} {d : Document} {links : List Link}
    (h : (Codec.list inner).read (d.within depth) = .ok links) : 2 * heightAll links ≤ depth := by
  obtain ⟨items, hd, hitems⟩ := Codec.read_list_eq_ok_iff.mp h
  cases d with
  | array items' closed =>
    cases depth with
    | zero => cases hd
    | succ n =>
      rw [Document.within, Document.allWithin_eq_map] at hd
      obtain ⟨rfl, -⟩ := Document.array.inj hd
      have hall : ∀ l ∈ links, l.height ≤ (n + 1) / 2 := by
        intro l hl
        obtain ⟨item, hitem, hread⟩ := exists_of_mem_of_forall₂ hitems hl
        obtain ⟨d, -, rfl⟩ := List.mem_map.mp hitem
        have := hinner n d l hread
        omega
      have := heightAll_le_iff.mpr hall
      omega
  | object members closed => cases depth <;> cases hd
  | null | boolean | number | string | broken => cases depth <;> cases hd

/-- If the list is given at all: without it there are no links. -/
theorem heightAll_le_of_gets {inner : Codec Link}
    (hinner : ∀ depth d l, inner.read (Document.within depth d) = .ok l → 2 * l.height ≤ depth + 1)
    {field : String} {depth : Nat} {given : Option Document} {links : List Link}
    (h : (Field.defaulted field (.list inner) []).Gets (given.map (Document.within depth)) links) :
    2 * heightAll links ≤ depth := by
  cases given with
  | none =>
    obtain rfl := Option.some.inj h
    exact Nat.zero_le depth
  | some d => exact heightAll_le_of_read hinner h

/-- **What a link is read from is at least so deep.** -/
theorem height_le_of_readWithin {levels depth : Nat} {d : Document} {l : Link}
    (h : readWithin levels (d.within depth) = .ok l) : 2 * l.height ≤ depth + 1 := by
  induction levels generalizing depth d l with
  | zero => cases h
  | succ levels ih =>
    have hcodec : (codecOver ⟨readWithin levels, write⟩).read (d.within depth) = .ok l := h
    rw [codecOver, Fields.read_codec_eq_ok_iff (names_nodup _)] at hcodec
    obtain ⟨hrecord, values, hgets, rfl⟩ := hcodec
    obtain ⟨featureType, name, links, ⟨⟩⟩ := values
    obtain ⟨-, -, hlinks, -⟩ := hgets
    cases depth with
    | zero => exact absurd hrecord d.not_isRecord_within_zero
    | succ n =>
      change Field.Gets _ ((d.within (n + 1)).given "relations" 2) links at hlinks
      rw [Document.given_within] at hlinks
      have hheight := heightAll_le_of_gets (fun _ _ _ => ih) hlinks
      change 2 * height ⟨featureType, name, links⟩ ≤ n + 1 + 1
      rw [height]
      omega

theorem read_list_write {links : List Link} {depth : Nat}
    (h : heightAll links ≤ depthLimit + 1) :
    (Codec.list codec).read ((Document.list (links.map write)).within (depth + 1)) =
      if 2 * heightAll links ≤ depth then .ok links else .error .malformed :=
  read_list_of_forall fun l hl => readWithin_write l (heightAll_le_iff.mp h l hl)

end Link

/-- The relations of metadata are read like those of a link. -/
theorem Metadata.read_write_within (m : Metadata) (depth : Nat) :
    Metadata.codec.read ((Metadata.codec.write m).within (depth + 1)) =
      ((Codec.list Link.codec).read ((Document.list (m.links.map Link.write)).within depth)).map
        fun links => ⟨m.featureType, links⟩ := by
  obtain ⟨featureType, links⟩ := m
  generalize hrelations : (Document.list (links.map Link.write)).within depth = relations
  cases featureType with
  | none =>
    have hwrite : (Metadata.codec.write ⟨none, links⟩).within (depth + 1) =
        .record [("relations", relations)] := by
      rw [← hrelations]
      rfl
    rw [hwrite]
    cases hlinks : (Codec.list Link.codec).read relations <;>
      simp [Metadata.codec, Fields.codec, Document.record, Fields.read, Fields.putAll, Fields.put,
        Fields.blank, Fields.complete, Field.optional, Field.defaulted, hlinks, bind, Except.bind,
        Except.map]
  | some t =>
    have hkeeps : (Codec.option .int64).Keeps 0 (some t) :=
      (Codec.keeps_int64 t).option fun _ h => by cases h
    have hwrite : (Metadata.codec.write ⟨some t, links⟩).within (depth + 1) =
        .record [("featureType", (Codec.option .int64).write (some t)), ("relations", relations)] := by
      rw [← hrelations]
      cases depth <;> rfl
    rw [hwrite]
    cases hlinks : (Codec.list Link.codec).read relations <;>
      simp [Metadata.codec, Fields.codec, Document.record, Fields.read, Fields.putAll, Fields.put,
        Fields.blank, Fields.complete, Field.optional, Field.defaulted, hlinks, hkeeps.read_write,
        bind, Except.bind, Except.map]

theorem Metadata.isSound_write (m : Metadata) : (Metadata.codec.write m).isSound = true := by
  obtain ⟨featureType, links⟩ := m
  have hlinks : (Document.list (links.map Link.write)).isSound = true := by
    rw [Document.list, Document.isSound, Document.allSound_eq_all, List.all_map, Bool.and_true,
      List.all_eq_true]
    exact fun l _ => l.isSound_write
  cases featureType with
  | none =>
    have hwrite : (Metadata.codec.write ⟨none, links⟩).isSound =
        (true && (Document.list (links.map Link.write)).isSound && true && true) := rfl
    rw [hwrite, hlinks]
    rfl
  | some t =>
    have hwrite : (Metadata.codec.write ⟨some t, links⟩).isSound =
        (true && (Codec.int64.write t).isSound &&
          (true && (Document.list (links.map Link.write)).isSound && true) && true) := rfl
    have hnumber : (Codec.int64.write t).isSound = true := Codec.isSound_ofInt t
    rw [hwrite, hlinks, hnumber]
    rfl

theorem Metadata.heightAll_le_of_read {d : Document} {m : Metadata} {depth : Nat}
    (h : Metadata.codec.read (d.within (depth + 1)) = .ok m) : 2 * Link.heightAll m.links ≤ depth := by
  rw [Metadata.codec, Fields.read_codec_eq_ok_iff (by decide)] at h
  obtain ⟨-, values, hgets, rfl⟩ := h
  obtain ⟨featureType, links, ⟨⟩⟩ := values
  obtain ⟨-, hlinks, -⟩ := hgets
  change Field.Gets _ ((d.within (depth + 1)).given "relations" 1) links at hlinks
  rw [Document.given_within] at hlinks
  exact Link.heightAll_le_of_gets (fun _ _ _ => Link.height_le_of_readWithin) hlinks

/-- The text of a link is read again just where it is not cut off. -/
theorem Link.ofText_toText {l : Link} (h : l.height ≤ depthLimit + 1) :
    Link.codec.ofText (Link.codec.toText l) =
      if l.height ≤ 63 then .ok l else .error .malformed := by
  have hread : Link.codec.read ((Link.codec.write l).within depthLimit) = _ :=
    Link.readWithin_write l h
  have hfits : 2 * l.height ≤ depthLimit ↔ l.height ≤ 63 := by
    rw [depthLimit]
    omega
  rw [Codec.ofText_toText_eq l.isSound_write, hread]
  simp only [hfits]

theorem Metadata.ofText_toText {m : Metadata} (h : Link.heightAll m.links ≤ depthLimit + 1) :
    Metadata.codec.ofText (Metadata.codec.toText m) =
      if Link.heightAll m.links ≤ 62 then .ok m else .error .malformed := by
  have hfits : 2 * Link.heightAll m.links ≤ 125 ↔ Link.heightAll m.links ≤ 62 := by omega
  have hlimit : depthLimit = 125 + 1 + 1 := rfl
  rw [Codec.ofText_toText_eq m.isSound_write, hlimit, m.read_write_within, Link.read_list_write h]
  simp only [hfits]
  split <;> rfl

/-! ## Links as deeply nested as a text can nest them -/

/-- A link inside a link, so many times. -/
def tower : Nat → Link
  | 0 => ⟨0, "", []⟩
  | n + 1 => ⟨0, "", [tower n]⟩

/-- A document of such a tower in the form of lists, without a list in the innermost link. -/
def towerDocument : Nat → Document
  | 0 => .list [.ofInt 0, .ofText ""]
  | n + 1 => .list [.ofInt 0, .ofText "", .list [towerDocument n]]

theorem height_tower (n : Nat) : (tower n).height = n + 1 := by
  induction n with
  | zero => rfl
  | succ n ih => rw [tower, Link.height, Link.heightAll, Link.heightAll, ih, Nat.max_zero]

theorem isSound_towerDocument (n : Nat) : (towerDocument n).isSound = true := by
  induction n with
  | zero => decide
  | succ n ih =>
    have hnumber : (Document.ofInt 0).isSound = true := by decide
    have hname : (Document.ofText "").isSound = true := rfl
    simp [towerDocument, Document.list, Document.isSound, Document.allSound, hnumber, hname, ih]

theorem depth_towerDocument (n : Nat) : (towerDocument n).depth = 2 * n + 1 := by
  induction n with
  | zero => rfl
  | succ n ih =>
    simp only [towerDocument, Document.list, Document.depth, Document.allDepth, Document.ofInt,
      Document.ofText, ih]
    omega

theorem readWithin_towerDocument {n levels : Nat} (h : n < levels) :
    Link.readWithin levels (towerDocument n) = .ok (tower n) := by
  induction n generalizing levels with
  | zero =>
    cases levels with
    | zero => omega
    | succ levels => rfl
  | succ n ih =>
    cases levels with
    | zero => omega
    | succ levels =>
      have hinner := ih (Nat.lt_of_succ_lt_succ h)
      have hitems : (Codec.list ⟨Link.readWithin levels, Link.write⟩).read
          (.list [towerDocument n]) = .ok [tower n] :=
        Codec.read_list_eq_ok_iff.mpr ⟨_, rfl, .cons hinner .nil⟩
      have hread : (Link.codecOver ⟨Link.readWithin levels, Link.write⟩).read
          (towerDocument (n + 1)) = .ok (tower (n + 1)) := by
        rw [Link.codecOver, Fields.read_codec_eq_ok_iff (Link.names_nodup _)]
        exact ⟨⟨rfl, Nat.le_refl 3⟩, (0, "", [tower n], ()), ⟨rfl, rfl, hitems, trivial⟩, rfl⟩
      exact hread

theorem read_text_towerDocument {n : Nat} (h : n ≤ 63) :
    Link.codec.ofText (towerDocument n).text = .ok (tower n) := by
  have hread := Document.read_text (isSound_towerDocument n)
  have hdepth : (towerDocument n).depth ≤ depthLimit := by
    rw [depth_towerDocument, depthLimit]
    omega
  refine Codec.ofText_eq_ok_iff.mpr ⟨towerDocument n, hread, ?_⟩
  rw [Document.within_eq_self hdepth]
  exact readWithin_towerDocument (by rw [depthLimit]; omega)

theorem read_text_forest {n : Nat} (h : n ≤ 62) :
    Metadata.codec.ofText (Document.list [.null, .list [towerDocument n]]).text =
      .ok ⟨none, [tower n]⟩ := by
  have hsound : (Document.list [.null, .list [towerDocument n]]).isSound = true := by
    simp [Document.list, Document.isSound, Document.allSound, isSound_towerDocument]
  have hdepth : (Document.list [.null, .list [towerDocument n]]).depth ≤ depthLimit := by
    simp only [Document.list, Document.depth, Document.allDepth, depth_towerDocument, depthLimit]
    omega
  refine Codec.ofText_eq_ok_iff.mpr ⟨_, Document.read_text hsound, ?_⟩
  have hlink : Link.codec.read (towerDocument n) = .ok (tower n) :=
    readWithin_towerDocument (by rw [depthLimit]; omega)
  have hitems : (Codec.list Link.codec).read (.list [towerDocument n]) = .ok [tower n] :=
    Codec.read_list_eq_ok_iff.mpr ⟨_, rfl, .cons hlink .nil⟩
  rw [Document.within_eq_self hdepth, Metadata.codec, Fields.read_codec_eq_ok_iff (by decide)]
  exact ⟨⟨rfl, Nat.le_refl 2⟩, (none, [tower n], ()), ⟨rfl, hitems, trivial⟩, rfl⟩

/-! ## What comes back -/

/-- **Links and metadata come back from their texts** unless links are
nested in them as deeply as a text can nest them: then the written text
is nested more deeply than a text may be. -/
theorem ofText_toText_nested :
    (∀ text l, Link.codec.ofText text = .ok l → l.height ≤ 64 ∧
      Link.codec.ofText (Link.codec.toText l) =
        if l.height ≤ 63 then .ok l else .error .malformed) ∧
    (∀ text m, Metadata.codec.ofText text = .ok m → Link.heightAll m.links ≤ 63 ∧
      Metadata.codec.ofText (Metadata.codec.toText m) =
        if Link.heightAll m.links ≤ 62 then .ok m else .error .malformed) := by
  constructor
  · intro text l h
    obtain ⟨d, -, hread⟩ := Codec.ofText_eq_ok_iff.mp h
    have hheight : 2 * l.height ≤ 127 + 1 := Link.height_le_of_readWithin hread
    exact ⟨by omega, Link.ofText_toText (by rw [depthLimit]; omega)⟩
  · intro text m h
    obtain ⟨d, -, hread⟩ := Codec.ofText_eq_ok_iff.mp h
    have hlimit : Metadata.codec.read (d.within (126 + 1)) = .ok m := hread
    have hheight := Metadata.heightAll_le_of_read hlimit
    exact ⟨by omega, Metadata.ofText_toText (by rw [depthLimit]; omega)⟩

theorem ofText_toText_nested_towers :
    (Link.codec.ofText (towerDocument 62).text = .ok (tower 62) ∧
      Link.codec.ofText (Link.codec.toText (tower 62)) = .ok (tower 62)) ∧
    (Metadata.codec.ofText (Document.list [.null, .list [towerDocument 62]]).text =
        .ok ⟨none, [tower 62]⟩ ∧
      Metadata.codec.ofText (Metadata.codec.toText ⟨none, [tower 62]⟩) = .error .malformed) := by
  have hlink := read_text_towerDocument (show 62 ≤ 63 by decide)
  have hforest := read_text_forest (Nat.le_refl 62)
  have hheight := height_tower 62
  generalize tower 62 = l at hlink hforest hheight
  have hall : Link.heightAll [l] = 63 := by
    rw [Link.heightAll, Link.heightAll, hheight, Nat.max_zero]
  have hback := (ofText_toText_nested.1 _ _ hlink).2
  have hlost := (ofText_toText_nested.2 _ _ hforest).2
  rw [if_pos (by omega)] at hback
  dsimp only at hlost
  rw [hall, if_neg (by omega)] at hlost
  exact ⟨⟨hlink, hback⟩, hforest, hlost⟩

/-- **Sixty-four links inside one another are read but do not come
back.** -/
theorem not_roundTrips_tower :
    Link.codec.ofText (towerDocument 63).text = .ok (tower 63) ∧
      Link.codec.ofText (Link.codec.toText (tower 63)) = .error .malformed ∧
      ¬ Link.codec.RoundTrips := by
  have hread := read_text_towerDocument (Nat.le_refl 63)
  have hheight := height_tower 63
  generalize tower 63 = l at hread hheight
  have hlost : Link.codec.ofText (Link.codec.toText l) = .error .malformed := by
    rw [Link.ofText_toText (by rw [hheight, depthLimit]; omega), if_neg (by omega)]
  refine ⟨hread, hlost, fun hback => ?_⟩
  have hkept := hback _ l hread
  rw [hlost] at hkept
  cases hkept

end Relations

end LayerQuery
