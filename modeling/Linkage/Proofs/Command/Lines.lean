import Linkage.Command.Report
import Mathlib.Data.List.Forall2

namespace Linkage.Command

open Body Description Space

def lowControls : List Nat :=
  [0x07, 0x08, 0x0C, 0x1B, 0x7F]

-- Whether a terminal could act on a character other than by showing it or by moving on.
def IsControl (c : Char) : Prop :=
  c.toNat ∈ lowControls ∨ 0x80 ≤ c.toNat ∧ c.toNat ≤ 0x9F

def hexDigits (n : Nat) : List Char :=
  [Nat.digitChar (n / 16), Nat.digitChar (n % 16)]

-- How a log spells a text.
inductive Spells : List Char → List Char → Prop where
  | nil : Spells [] []
  | plain {c : Char} {rest shown : List Char} : ¬IsControl c → Spells rest shown →
      Spells (c :: rest) (c :: shown)
  | low {c : Char} {rest shown : List Char} : c.toNat ∈ lowControls → Spells rest shown →
      Spells (c :: rest) (['\\', 'x'] ++ hexDigits c.toNat ++ shown)
  | high {c : Char} {rest shown : List Char} : 0x80 ≤ c.toNat → c.toNat ≤ 0x9F →
      Spells rest shown →
        Spells (c :: rest) (['\\', 'u', '\x7b'] ++ hexDigits c.toNat ++ ['\x7d'] ++ shown)

-- A text in a column, which is filled up with spaces where the text is shorter.
def AtLeft (width : Nat) (text column : String) : Prop :=
  column.toList = text.toList ++ List.replicate (width - text.length) ' '

def AtRight (width : Nat) (text column : String) : Prop :=
  column.toList = List.replicate (width - text.length) ' ' ++ text.toList

def kindTitles : List (JointKind × String) :=
  [(.revolute, "Revolute"), (.continuous, "Continuous"), (.prismatic, "Prismatic"),
    (.fixed, "Fixed"), (.floating, "Floating"), (.planar, "Planar"), (.spherical, "Spherical")]

def motionTitles : List (Motion × String) :=
  [(.turning, "Revolute"), (.sliding, "Prismatic")]

-- Numbers in a line have four places.
def numbers (xs : List Float) : String :=
  "[" ++ ", ".intercalate (xs.map (Decimal.fixed 4)) ++ "]"

-- What a run says at once. Where the name of a link holds a line break, its text has that as well.
inductive Line where
  | warning (joint : Joint Float)
  | read (count : Nat) (path : String)
  | entry (name : String) (entry : Entry Float)
  | chain (chain : Chain Float)
  | pose (name : String) (pose : Pose Float)
  | failure (failure : Failure)

namespace Line

-- The text in which a line says it. Names stand as they are but in what is logged.
inductive Reads : Line → String → Prop where
  | warning {joint : Joint Float} {name title : String} : Spells joint.name.toList name.toList →
      (joint.kind, title) ∈ kindTitles →
        Reads (.warning joint) ("WARN urdf_chain::utils: joint " ++ name ++ " of type " ++ title ++
          " is modelled as prismatic")
  | read {count : Nat} {path place : String} : Spells path.toList place.toList →
      Reads (.read count path)
        ("INFO urdf_chain: read " ++ toString count ++ " links from " ++ place)
  | entry {name first second title mass : String} {entry : Entry Float} : AtLeft 24 name first →
      AtLeft 24 (entry.parent.getD "-") second →
      (entry.segment.body.motion, title) ∈ motionTitles →
      AtRight 10 (Decimal.fixed 4 entry.segment.body.mass) mass →
        Reads (.entry name entry) (first ++ " parent: " ++ second ++ " " ++ title ++ " mass: " ++
          mass ++ " screw: " ++ numbers entry.segment.body.screw.entries)
  | chain {chain : Chain Float} :
      Reads (.chain chain) ("chain: " ++ " -> ".intercalate chain.names)
  | pose {name first : String} {pose : Pose Float} : AtLeft 24 name first →
      Reads (.pose name pose) (first ++ " xyz: " ++
        numbers [pose.position.x, pose.position.y, pose.position.z] ++ " rpy: " ++
        numbers [pose.rotation.toMatrix.rollPitchYaw.x, pose.rotation.toMatrix.rollPitchYaw.y,
          pose.rotation.toMatrix.rollPitchYaw.z])
  | failure {failure : Failure} {message : String} : Spells failure.message.toList message.toList →
      Reads (.failure failure) ("ERROR urdf_chain: " ++ message)

def text : Line → String
  | warning joint => logLine .warning "urdf_chain::utils" (Event.folded joint.name joint.kind).text
  | read count path => readLine count path
  | entry name link => entryLine name link
  | chain links => chainLine links
  | pose name place => poseLine name place
  | failure reason => failureLine reason

end Line

-- What a text begins with, up to its first space.
def firstWord (text : String) : String :=
  String.ofList (text.toList.takeWhile (· != ' '))

-- The first word of a line tells of which kind it is, if no link is named like that.
def Line.word : Line → String
  | warning _ => "WARN"
  | read _ _ => "INFO"
  | entry name _ => firstWord name
  | chain _ => "chain:"
  | pose name _ => firstWord name
  | failure _ => "ERROR"

theorem leftpad_eq_hexDigits :
    ∀ n ∈ lowControls, (Nat.toDigits 16 n).leftpad 2 '0' = hexDigits n := by
  decide

theorem toDigits_eq_hexDigits : ∀ n < 0xA0, 0x80 ≤ n → Nat.toDigits 16 n = hexDigits n := by
  decide

theorem showControl_eq (c : Char) : showControl c =
    if lowControls.contains c.toNat then ['\\', 'x'] ++ (Nat.toDigits 16 c.toNat).leftpad 2 '0'
    else if 0x80 ≤ c.toNat ∧ c.toNat ≤ 0x9F then
      ['\\', 'u', '\x7b'] ++ Nat.toDigits 16 c.toNat ++ ['\x7d']
    else [c] :=
  rfl

theorem showControl_plain {c : Char} (h : ¬IsControl c) : showControl c = [c] := by
  simp only [IsControl, not_or] at h
  simp only [showControl_eq, List.contains_iff_mem, h.1, h.2, if_false]

theorem showControl_low {c : Char} (h : c.toNat ∈ lowControls) :
    showControl c = ['\\', 'x'] ++ hexDigits c.toNat := by
  simp only [showControl_eq, List.contains_iff_mem, h, if_true, leftpad_eq_hexDigits _ h]

theorem showControl_high {c : Char} (hge : 0x80 ≤ c.toNat) (hle : c.toNat ≤ 0x9F) :
    showControl c = ['\\', 'u', '\x7b'] ++ hexDigits c.toNat ++ ['\x7d'] := by
  have hlow : c.toNat ∉ lowControls := by
    simp [lowControls]
    omega
  have hdigits : Nat.toDigits 16 c.toNat = hexDigits c.toNat :=
    toDigits_eq_hexDigits c.toNat (by omega) hge
  simp only [showControl_eq, List.contains_iff_mem, hlow, hge, hle, and_self, if_true, if_false,
    hdigits]

theorem spells_spell (text : String) : Spells text.toList (spell text).toList := by
  rw [spell, String.toList_ofList]
  induction text.toList with
  | nil => exact .nil
  | cons c rest ih =>
      rw [List.flatMap_cons]
      by_cases hlow : c.toNat ∈ lowControls
      · rw [showControl_low hlow]
        exact .low hlow ih
      · by_cases hhigh : 0x80 ≤ c.toNat ∧ c.toNat ≤ 0x9F
        · rw [showControl_high hhigh.1 hhigh.2]
          exact .high hhigh.1 hhigh.2 ih
        · have hplain : ¬IsControl c := not_or.mpr ⟨hlow, hhigh⟩
          rw [showControl_plain hplain]
          exact .plain hplain ih

theorem Spells.eq_flatMap {text shown : List Char} (h : Spells text shown) :
    shown = text.flatMap showControl := by
  induction h with
  | nil => rfl
  | plain hplain _ ih => rw [List.flatMap_cons, showControl_plain hplain, ih, List.singleton_append]
  | low hlow _ ih => rw [List.flatMap_cons, showControl_low hlow, ih]
  | high hge hle _ ih => rw [List.flatMap_cons, showControl_high hge hle, ih]

theorem spells_iff {text shown : String} : Spells text.toList shown.toList ↔ shown = spell text := by
  constructor
  · intro h
    rw [spell, ← h.eq_flatMap, String.ofList_toList]
  · rintro rfl
    exact spells_spell text

-- A text without such controls stands in a log as it is.
theorem Spells.eq_of_plain {text shown : List Char} (h : Spells text shown)
    (hplain : ∀ c ∈ text, ¬IsControl c) : shown = text := by
  induction h with
  | nil => rfl
  | plain _ _ ih => rw [ih fun c hm => hplain c (List.mem_cons_of_mem _ hm)]
  | low hlow _ _ => exact absurd (.inl hlow) (hplain _ List.mem_cons_self)
  | high hge hle _ _ => exact absurd (.inr ⟨hge, hle⟩) (hplain _ List.mem_cons_self)

theorem spell_append (first second : String) : spell (first ++ second) = spell first ++ spell second := by
  simp [spell, String.toList_append, List.flatMap_append]

theorem spell_of_plain {text : String} (h : ∀ c ∈ text.toList, ¬IsControl c) : spell text = text :=
  String.toList_inj.mp ((spells_spell text).eq_of_plain h)

theorem not_isControl_of_isDigit {c : Char} (h : c.isDigit = true) : ¬IsControl c := by
  have hrange : 48 ≤ c.toNat ∧ c.toNat ≤ 57 := Char.isDigit_iff_toNat.mp h
  simp only [IsControl, lowControls, List.mem_cons, List.not_mem_nil, or_false]
  omega

theorem spell_toString (n : Nat) : spell (toString n) = toString n := by
  apply spell_of_plain
  intro c hm
  rw [Nat.toString_eq_repr, Nat.toList_repr] at hm
  exact not_isControl_of_isDigit (Nat.isDigit_of_mem_toDigits (by decide) (by decide) hm)

theorem mem_kindTitles_iff {kind : JointKind} {title : String} :
    (kind, title) ∈ kindTitles ↔ title = kind.title := by
  cases kind <;> simp [kindTitles, JointKind.title]

theorem mem_motionTitles_iff {motion : Motion} {title : String} :
    (motion, title) ∈ motionTitles ↔ title = motion.title := by
  cases motion <;> simp [motionTitles, Motion.title]

theorem spell_title (kind : JointKind) : spell kind.title = kind.title := by
  cases kind <;> rfl

theorem atLeft_iff {width : Nat} {text column : String} :
    AtLeft width text column ↔ column = padRight width text := by
  rw [AtLeft, padRight, List.rightpad, String.length_toList, ← String.toList_inj,
    String.toList_ofList]

theorem atRight_iff {width : Nat} {text column : String} :
    AtRight width text column ↔ column = padLeft width text := by
  rw [AtRight, padLeft, List.leftpad, String.length_toList, ← String.toList_inj,
    String.toList_ofList]

theorem spell_folded (joint : Joint Float) : spell (Event.folded joint.name joint.kind).text =
    "joint " ++ spell joint.name ++ " of type " ++ joint.kind.title ++ " is modelled as prismatic" := by
  have hjoint : spell "joint " = "joint " := rfl
  have hkind : spell " of type " = " of type " := rfl
  have hmodelled : spell " is modelled as prismatic" = " is modelled as prismatic" := rfl
  change spell ("joint " ++ joint.name ++ " of type " ++ joint.kind.title ++
    " is modelled as prismatic") = _
  simp only [spell_append, spell_title, hjoint, hkind, hmodelled]

theorem spell_read (count : Nat) (path : String) :
    spell s!"read {count} links from {path}" =
      "read " ++ toString count ++ " links from " ++ spell path := by
  have hread : spell "read " = "read " := rfl
  have hlinks : spell " links from " = " links from " := rfl
  change spell ("read " ++ toString count ++ " links from " ++ path) = _
  simp only [spell_append, spell_toString, hread, hlinks]

namespace Line

theorem text_warning (joint : Joint Float) : (warning joint).text = "WARN urdf_chain::utils: joint " ++
    spell joint.name ++ " of type " ++ joint.kind.title ++ " is modelled as prismatic" := by
  have hhead : "WARN urdf_chain::utils: joint " =
    "WARN" ++ " " ++ "urdf_chain::utils" ++ ": " ++ "joint " := rfl
  rw [text, logLine, spell_folded, hhead]
  simp only [Level.name, String.append_assoc]

theorem text_read (count : Nat) (path : String) : (read count path).text =
    "INFO urdf_chain: read " ++ toString count ++ " links from " ++ spell path := by
  have hhead : "INFO urdf_chain: read " = "INFO" ++ " " ++ "urdf_chain" ++ ": " ++ "read " := rfl
  rw [text, readLine, logLine, spell_read, hhead]
  simp only [Level.name, String.append_assoc]

theorem text_entry (name : String) (link : Entry Float) : (entry name link).text =
    padRight 24 name ++ " parent: " ++ padRight 24 (link.parent.getD "-") ++ " " ++
      link.segment.body.motion.title ++ " mass: " ++
      padLeft 10 (Decimal.fixed 4 link.segment.body.mass) ++ " screw: " ++
      numbers link.segment.body.screw.entries :=
  rfl

theorem text_pose (name : String) (place : Pose Float) : (pose name place).text =
    padRight 24 name ++ " xyz: " ++
      numbers [place.position.x, place.position.y, place.position.z] ++ " rpy: " ++
      numbers [place.rotation.toMatrix.rollPitchYaw.x, place.rotation.toMatrix.rollPitchYaw.y,
        place.rotation.toMatrix.rollPitchYaw.z] :=
  rfl

theorem text_failure (reason : Failure) :
    (failure reason).text = "ERROR urdf_chain: " ++ spell reason.message := by
  have hhead : "ERROR urdf_chain: " = "ERROR" ++ " " ++ "urdf_chain" ++ ": " := rfl
  simp only [text, failureLine, logLine, Level.name, hhead]

-- There is one text that a line can have, and it has that.
theorem reads_iff {line : Line} {shown : String} : line.Reads shown ↔ shown = line.text := by
  constructor
  · intro h
    cases h with
    | warning hname htitle =>
        rw [text_warning, spells_iff.mp hname, mem_kindTitles_iff.mp htitle]
    | read hplace => rw [text_read, spells_iff.mp hplace]
    | entry hfirst hsecond htitle hmass =>
        rw [text_entry, atLeft_iff.mp hfirst, atLeft_iff.mp hsecond, mem_motionTitles_iff.mp htitle,
          atRight_iff.mp hmass]
    | chain => rfl
    | pose hfirst => rw [text_pose, atLeft_iff.mp hfirst]
    | failure hmessage => rw [text_failure, spells_iff.mp hmessage]
  · rintro rfl
    cases line with
    | warning joint =>
        rw [text_warning]
        exact .warning (spells_spell joint.name) (mem_kindTitles_iff.mpr rfl)
    | read count path =>
        rw [text_read]
        exact .read (spells_spell path)
    | entry name link =>
        rw [text_entry]
        exact .entry (atLeft_iff.mpr rfl) (atLeft_iff.mpr rfl) (mem_motionTitles_iff.mpr rfl)
          (atRight_iff.mpr rfl)
    | chain links => exact .chain
    | pose name place =>
        rw [text_pose]
        exact .pose (atLeft_iff.mpr rfl)
    | failure reason =>
        rw [text_failure]
        exact .failure (spells_spell reason.message)

theorem forall₂_reads_iff {said : List Line} {lines : List String} :
    List.Forall₂ Reads said lines ↔ lines = said.map text := by
  have hreads : Reads = fun line shown => line.text = shown := by
    funext line shown
    exact propext (reads_iff.trans eq_comm)
  rw [hreads, ← List.forall₂_map_left_iff, List.forall₂_eq_eq_eq, eq_comm]

end Line

theorem takeWhile_append_space (word rest : List Char) :
    (word ++ ' ' :: rest).takeWhile (· != ' ') = word.takeWhile (· != ' ') := by
  induction word with
  | nil => rfl
  | cons c word ih =>
      by_cases hc : c = ' '
      · simp [hc]
      · simp [hc, ih]

theorem firstWord_append (word rest : String) : firstWord (word ++ (" " ++ rest)) = firstWord word := by
  have hspace : " ".toList = [' '] := rfl
  rw [firstWord, String.toList_append, String.toList_append, hspace, List.singleton_append,
    takeWhile_append_space, firstWord]

-- The spaces that fill up a column are no part of a word.
theorem AtLeft.firstWord_append {width : Nat} {name column : String} (h : AtLeft width name column)
    (rest : String) : firstWord (column ++ (" " ++ rest)) = firstWord name := by
  obtain ⟨after, hafter⟩ : ∃ after, (column ++ (" " ++ rest)).toList = name.toList ++ ' ' :: after := by
    have hspace : " ".toList = [' '] := rfl
    rw [String.toList_append, String.toList_append, h, hspace, List.append_assoc]
    cases width - name.length with
    | zero => exact ⟨rest.toList, rfl⟩
    | succ n => exact ⟨List.replicate n ' ' ++ ([' '] ++ rest.toList), rfl⟩
  rw [firstWord, hafter, takeWhile_append_space, firstWord]

-- The kinds of lines are told apart by their first words.
theorem Line.Reads.firstWord_eq {line : Line} {text : String} (h : line.Reads text) :
    firstWord text = line.word := by
  cases h with
  | warning =>
      have hhead : "WARN urdf_chain::utils: joint " = "WARN" ++ (" " ++ "urdf_chain::utils: joint ") := rfl
      simp only [hhead, String.append_assoc, firstWord_append]
      rfl
  | read =>
      have hhead : "INFO urdf_chain: read " = "INFO" ++ (" " ++ "urdf_chain: read ") := rfl
      simp only [hhead, String.append_assoc, firstWord_append]
      rfl
  | entry hfirst =>
      have hparent : " parent: " = " " ++ "parent: " := rfl
      simp only [hparent, String.append_assoc, hfirst.firstWord_append]
      rfl
  | chain =>
      have hhead : "chain: " = "chain:" ++ (" " ++ "") := rfl
      simp only [hhead, String.append_assoc, Command.firstWord_append]
      rfl
  | pose hfirst =>
      have hplace : " xyz: " = " " ++ "xyz: " := rfl
      simp only [hplace, String.append_assoc, hfirst.firstWord_append]
      rfl
  | failure =>
      have hhead : "ERROR urdf_chain: " = "ERROR" ++ (" " ++ "urdf_chain: ") := rfl
      simp only [hhead, String.append_assoc, firstWord_append]
      rfl

theorem Line.map_firstWord {said : List Line} {lines : List String}
    (h : List.Forall₂ Line.Reads said lines) : lines.map firstWord = said.map Line.word := by
  induction h with
  | nil => rfl
  | cons hline _ ih => rw [List.map_cons, List.map_cons, hline.firstWord_eq, ih]

end Linkage.Command
