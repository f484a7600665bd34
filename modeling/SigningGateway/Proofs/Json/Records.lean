import Mathlib.Data.List.Forall2
import SigningGateway.Json.Decode
import SigningGateway.Proofs.Time.Writing

/-!
# Written records are decoded

An object whose members are those of the fields of a record, in their order, with values that pass
the checks of the fields, gives each field its value.

    members match fields → Record.read fields (ofFields members) = .ok (valueOf members)
                                                                                (read_ofFields)
-/

namespace SigningGateway

namespace Json

/-- What a step of a decoder gave when the whole gave a value. -/
theorem bind_eq_ok {α β : Type} (x : Except DecodeError α) (f : α → Except DecodeError β) (b : β) :
    x.bind f = .ok b ↔ ∃ a, x = .ok a ∧ f a = .ok b := by
  cases x with
  | ok a => simp [Except.bind]
  | error cause => simp [Except.bind]

/-! ## Scalars -/

namespace Decode

variable {α : Type}

@[simp] theorem text_text (s : String) : text (.text s) = .ok s := rfl

@[simp] theorem hexBytes_encode (bytes : Bytes) :
    hexBytes (.text (Hex.encode bytes)) = .ok bytes := by
  simp [hexBytes, bind, Except.bind, Hex.decode_encode]

@[simp] theorem nodeId_toHex (n : NodeId) : nodeId (.text n.toHex) = .ok n := by
  simp [nodeId, bind, Except.bind, NodeId.parse_toHex]

theorem natBelow_nat {bound n : Nat} (h : n < bound) : natBelow bound (.nat n) = .ok n := by
  simp [natBelow, nat, Number.toNat?, h]

@[simp] theorem word64_toNat (n : UInt64) : word64 (.nat n.toNat) = .ok n := by
  simp [word64, natBelow_nat n.toNat_lt_size, bind, Except.bind, pure, Except.pure]

@[simp] theorem word32_toNat (n : UInt32) : word32 (.nat n.toNat) = .ok n := by
  simp [word32, natBelow_nat n.toNat_lt_size, bind, Except.bind, pure, Except.pure]

theorem moment_format (m : Moment) (h : m.IsDated) : moment (.text m.format) = .ok m := by
  simp [moment, bind, Except.bind, Moment.parse?_format m h]

theorem nullable_ofOption (d : Decoder α) (write : α → Json) (value : Option α)
    (hnull : ∀ a, write a ≠ .null) (h : ∀ a, value = some a → d (write a) = .ok a) :
    nullable d (.ofOption write value) = .ok value := by
  cases value with
  | none => rfl
  | some a =>
    have ha := h a rfl
    rw [ofOption, nullable]
    · rw [ha]
      rfl
    · exact hnull a

theorem list_map (d : Decoder α) (write : α → Json) (values : List α)
    (h : ∀ a ∈ values, d (write a) = .ok a) :
    list d (.array (values.map write)) = .ok values := by
  rw [list]
  induction values with
  | nil => rfl
  | cons a values ih =>
    rw [List.map_cons, List.mapM_cons, h a List.mem_cons_self,
      ih fun b hb => h b (List.mem_cons_of_mem _ hb)]
    rfl

/-- Only moments that have a written form are decoded. -/
theorem isDated_moment (v : Json) (m : Moment) (h : moment v = .ok m) : m.IsDated := by
  obtain ⟨s, -, hparse⟩ := (bind_eq_ok _ _ _).1 h
  split at hparse
  · next heq => exact Moment.isDated_parse? s m (Except.ok.inj hparse ▸ heq)
  · cases hparse

/-- What holds of every decoded value holds of the items of a decoded array. -/
theorem forall_list (d : Decoder α) (p : α → Prop) (hp : ∀ v a, d v = .ok a → p a) (v : Json)
    (values : List α) (h : list d v = .ok values) : ∀ a ∈ values, p a := by
  cases v with
  | array items =>
    rw [list] at h
    induction items generalizing values with
    | nil =>
      obtain rfl := Except.ok.inj h
      intro a ha
      cases ha
    | cons v items ih =>
      rw [List.mapM_cons] at h
      obtain ⟨a, ha, h⟩ := (bind_eq_ok _ _ _).1 h
      obtain ⟨rest, hrest, h⟩ := (bind_eq_ok _ _ _).1 h
      obtain rfl := Except.ok.inj h
      intro b hb
      rcases List.mem_cons.1 hb with rfl | hb
      · exact hp v _ ha
      · exact ih rest hrest b hb
  | _ => cases h

/-- What holds of every decoded value holds of one that may be null. -/
theorem forall_nullable (d : Decoder α) (p : α → Prop) (hp : ∀ v a, d v = .ok a → p a) (v : Json)
    (value : Option α) (h : nullable d v = .ok value) : ∀ a, value = some a → p a := by
  unfold nullable at h
  split at h
  · obtain rfl := Except.ok.inj h
    rintro a ⟨⟩
  · rintro a rfl
    cases hd : d v with
    | ok b =>
      rw [hd] at h
      obtain rfl := Option.some.inj (Except.ok.inj h)
      exact hp v b hd
    | error cause =>
      rw [hd] at h
      cases h

end Decode

/-! ## Fields -/

namespace Record

/-- A member that belongs to a field and passes its check. -/
def Fits (f : Field) (member : String × Json) : Prop :=
  f.name = member.1 ∧ f.check member.2 = .ok ()

section
variable {α : Type} (name : String) (d : Decoder α) (v : Json) (a : α) (h : d v = .ok a)
include h

theorem fits_field : Fits (field name d) (name, v) := ⟨rfl, by simp [field, h, Except.map]⟩

theorem fits_optionalField : Fits (optionalField name d) (name, v) :=
  ⟨rfl, by simp [optionalField, h, Except.map]⟩

theorem fits_defaultedField : Fits (defaultedField name d) (name, v) :=
  ⟨rfl, by simp [defaultedField, h, Except.map]⟩

end

theorem names_of_fits {fields : List Field} {members : List (String × Json)}
    (h : List.Forall₂ Fits fields members) :
    fields.map Field.name = members.map Prod.fst := by
  induction h with
  | nil => rfl
  | cons hfit _ ih => rw [List.map_cons, List.map_cons, hfit.1, ih]

/-- Members of fields behind those that were given are taken in their order. -/
theorem takeMembers_fits (front fields : List Field) (given members : List (String × Json))
    (hgiven : given.map Prod.fst ⊆ front.map Field.name) (h : List.Forall₂ Fits fields members)
    (hnames : ((front ++ fields).map Field.name).Nodup) :
    takeMembers (front ++ fields) (members.map fun m => (some m.1, m.2)) given =
      .ok (given ++ members) := by
  induction h generalizing front given with
  | nil => rw [List.map_nil, takeMembers, List.append_nil]
  | @cons f member fields members hfit _ ih =>
    obtain ⟨key, v⟩ := member
    obtain ⟨rfl, hcheck⟩ := hfit
    have hnew : f.name ∉ front.map Field.name := by
      rw [List.map_append, List.nodup_append] at hnames
      exact fun hmem => hnames.2.2 _ hmem _ (by simp) rfl
    have hfind : (front ++ f :: fields).find? (·.name = f.name) = some f := by
      rw [List.find?_append, List.find?_eq_none.2, Option.none_or, List.find?_cons]
      · simp
      · intro g hg
        have : g.name ≠ f.name := fun heq => hnew (heq ▸ List.mem_map_of_mem hg)
        simpa using this
    have hfresh : (given.any (·.1 = f.name)) = false := by
      rw [List.any_eq_false]
      intro g hg
      have : g.1 ≠ f.name := fun heq => hnew (heq ▸ hgiven (List.mem_map_of_mem hg))
      simpa using this
    have hnext : (given ++ [(f.name, v)]).map Prod.fst ⊆ (front ++ [f]).map Field.name := by
      intro key hkey
      rw [List.map_append, List.mem_append] at hkey ⊢
      exact hkey.imp (fun h => hgiven h) id
    have hrest := ih (front ++ [f]) (given ++ [(f.name, v)]) hnext (by simpa using hnames)
    rw [List.append_assoc, List.append_assoc] at hrest
    simp only [List.map_cons, takeMembers, hfind, hfresh, hcheck, bind, Except.bind]
    exact hrest

/-- Members that belong to the fields behind some that may be left out give each its value. -/
theorem readMembers_fits (front fields : List Field) (members : List (String × Json))
    (hfront : ∀ f ∈ front, f.presence ≠ .required) (h : List.Forall₂ Fits fields members)
    (hnames : ((front ++ fields).map Field.name).Nodup) :
    readMembers (front ++ fields) (members.map fun m => (some m.1, m.2)) =
      .ok (valueOf members) := by
  have htake := takeMembers_fits front fields [] members (by simp) h hnames
  have hgiven : checkGiven (front ++ fields) members = .ok () := by
    rw [checkGiven, List.find?_eq_none.2]
    intro f hf
    rcases List.mem_append.1 hf with hf | hf
    · simp [hfront f hf]
    · have hmem : f.name ∈ members.map Prod.fst := by
        rw [← names_of_fits h]
        exact List.mem_map_of_mem hf
      obtain ⟨g, hg, hname⟩ := List.mem_map.1 hmem
      simp only [Bool.and_eq_true, Bool.not_eq_true', not_and, decide_eq_true_eq,
        Bool.not_eq_false]
      exact fun _ => List.any_eq_true.2 ⟨g, hg, by simpa using hname⟩
  simp only [List.nil_append] at htake
  simp only [readMembers, htake, hgiven, bind, Except.bind]
  rfl

/-- A written record gives each field its value. -/
theorem read_ofFields (fields : List Field) (members : List (String × Json))
    (h : List.Forall₂ Fits fields members) (hnames : (fields.map Field.name).Nodup) :
    read fields (.ofFields members) = .ok (valueOf members) :=
  readMembers_fits [] fields members (by simp) h hnames

@[simp] theorem valueOf_cons (name key : String) (v : Json) (rest : List (String × Json)) :
    valueOf ((name, v) :: rest) key = if name = key then v else valueOf rest key := by
  by_cases h : name = key <;> simp [valueOf, h]

@[simp] theorem valueOf_nil (key : String) : valueOf [] key = .null := rfl

/-! ## Members that are kept -/

/-- A member that is kept for later beside those of a field. -/
def IsKept (name : String) (member : String × Json) : Prop :=
  member.1 ≠ name ∧ member.2.isStorable keptDepth = true

theorem isStorable_text (depth : Nat) (s : String) : (text s).isStorable depth = true := by
  cases depth <;> rfl

/-- A number of so few digits fits a double. -/
theorem isStorable_nat (depth n : Nat) (h : n < UInt64.size) :
    (nat n).isStorable depth = true := by
  have hdigits : (Nat.toDigits 10 n).length ≤ 20 :=
    (Nat.length_toDigits_le_iff (by decide) (by decide)).2 (Nat.lt_trans h (by decide))
  have hfits : Number.fitsDouble ⟨n, 0, true⟩ = true := by
    unfold Number.fitsDouble Number.digitCount
    refine if_pos ?_
    simp only [Bool.or_eq_true, decide_eq_true_eq]
    omega
  cases depth <;> exact hfits

section
variable (f : Field) (members : List (String × Json)) (hkept : ∀ m ∈ members, IsKept f.name m)
include hkept

/-- Members that belong to no field are kept in their order. -/
theorem splitMembers_kept (rest : List (Option String × Json)) (given : List (String × Json))
    (kept : List (Option String × Json)) :
    splitMembers [f] (members.map (fun m => (some m.1, m.2)) ++ rest) given kept =
      splitMembers [f] rest given (kept ++ members.map fun m => (some m.1, m.2)) := by
  induction members generalizing kept with
  | nil => rw [List.map_nil, List.nil_append, List.append_nil]
  | cons m members ih =>
    obtain ⟨key, v⟩ := m
    obtain ⟨hother, hstorable⟩ := hkept _ List.mem_cons_self
    have hnone : [f].find? (·.name = key) = none := by simp [Ne.symm hother]
    have hrest := ih (fun m hm => hkept m (List.mem_cons_of_mem _ hm)) (kept ++ [(some key, v)])
    rw [List.append_assoc] at hrest
    simp only [List.map_cons, List.cons_append, splitMembers, hnone, hstorable, if_true]
    exact hrest

/-- The member of a field is taken, wherever it stands among those that are kept. -/
theorem splitMembers_own (v : Json) (hcheck : f.check v = .ok ()) (front back)
    (hmembers : members = front ++ back) :
    splitMembers [f] ((front ++ (f.name, v) :: back).map fun m => (some m.1, m.2)) [] [] =
      .ok ([(f.name, v)], members.map fun m => (some m.1, m.2)) := by
  subst hmembers
  have hfront := splitMembers_kept f front fun m hm => hkept m (List.mem_append_left _ hm)
  have hback := splitMembers_kept f back (fun m hm => hkept m (List.mem_append_right _ hm)) []
  simp only [List.append_nil] at hback
  rw [List.map_append, List.map_cons, hfront]
  simp [splitMembers, hcheck, bind, Except.bind, hback]

end

/-- The fields of two records that stand side by side are given their values. -/
theorem readBeside_ofFields (f : Field) (inner : List Field) (members : List (String × Json))
    (v : Json) (hcheck : f.check v = .ok ()) (hkept : ∀ m ∈ members, IsKept f.name m)
    (h : List.Forall₂ Fits inner members) (hnames : (inner.map Field.name).Nodup) :
    readBeside [f] inner (.ofFields (members ++ [(f.name, v)])) =
      .ok (valueOf [(f.name, v)], valueOf members) := by
  have hsplit := splitMembers_own f members hkept v hcheck members [] (List.append_nil _).symm
  have hgiven : checkGiven [f] [(f.name, v)] = .ok () := by simp [checkGiven]
  have hread := readMembers_fits [] inner members (by simp) h hnames
  rw [List.nil_append] at hread
  simp only [ofFields, readBeside, hsplit, hgiven, hread, bind, Except.bind, pure, Except.pure]

theorem checkGiven_field {α : Type} (name : String) (d : Decoder α) (v : Json) :
    checkGiven [field name d] [(name, v)] = .ok () := by
  simp [checkGiven, field]

/-- A tagged record is read as its variant and its other members. -/
theorem readTagged_ofFields {α : Type} (variants : List (String × α)) (tag : String) (variant : α)
    (hchoice : Decode.choice variants tag = .ok variant) (members : List (String × Json))
    (hkept : ∀ m ∈ members, IsKept tagName m) :
    readTagged variants (.ofFields ((tagName, .text tag) :: members)) =
      .ok (variant, .ofFields members) := by
  let f := field tagName fun v => do Decode.choice variants (← Decode.text v)
  have hcheck : f.check (.text tag) = .ok () := by
    simp [f, field, hchoice, bind, Except.bind, Except.map]
  have hsplit : splitMembers [f]
      (((tagName, Json.text tag) :: members).map fun m => (some m.1, m.2)) [] [] =
        .ok ([(tagName, .text tag)], members.map fun m => (some m.1, m.2)) :=
    splitMembers_own f members hkept (.text tag) hcheck [] members rfl
  show (splitMembers [f] _ [] []).bind _ = _
  rw [hsplit]
  simp only [checkGiven_field, valueOf_cons, if_true, Decode.text_text, hchoice, bind, Except.bind,
    pure, Except.pure, ofFields]

end Record

end Json

end SigningGateway
