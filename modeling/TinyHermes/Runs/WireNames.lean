import TinyHermes.Lib.JsonText
import TinyHermes.Tools.HttpCalls

/-! The names of tools on the wire: what an endpoint is shown for each, and what the name it answers with is read as. -/
namespace TinyHermes.Runs.WireNames
open Lib Tools
open Outbound (isLabelChar)

section Spelling

/-- `_WIRE_SEPARATOR`. -/
def wireSeparator : List Char := ['_', '_']

def isWireChar (c : Char) : Bool := c.isAlphanum || c == '_' || c == '-'

/-- `_WIRE_NAME.fullmatch`. -/
def isWireName (name : List Char) : Bool := !name.isEmpty && decide (name.length ≤ 64) && name.all isWireChar

def plainName (name : List Char) : List Char := replaceFrom ['.'] wireSeparator 0 name

/-- `_from_wire_name`. -/
def fromWireName (wire : List Char) : List Char := replaceFrom wireSeparator ['.'] 0 wire

/-- The escape is a name that is accepted, and read back. -/
def isPlain (name : List Char) : Bool := isWireName (plainName name) && fromWireName (plainName name) == name

/-- `hashlib.sha256(name.encode()).hexdigest()[:8]`. -/
structure NameDigest where
  digest : List Char → List Char
  length_digest : ∀ name, (digest name).length = 8
  hex_digest : ∀ name, (digest name).all (fun c => c.isDigit || ('a' ≤ c && c ≤ 'f')) = true

def cleaned (name : List Char) : List Char :=
  (replaceFrom ['.'] ['_'] 0 name).map fun c => if isWireChar c then c else '_'

variable (d : NameDigest)

def hashedName (name : List Char) : List Char := (cleaned name).take 54 ++ '_' :: 'h' :: d.digest name

/-- `_to_wire_name`. -/
def toWireName (name : List Char) : List Char := if isPlain name then plainName name else hashedName d name

end Spelling

section Tables

def advertisedName (schema : Document) : Option (List Char) :=
  match schema.lookup "function" with
  | some (.object signature) =>
    match signature.lookup "name" with
    | some (.string name) => some name.toList
    | _ => none
  | _ => none

def advertised (schemas : List Document) : List (List Char) := schemas.filterMap advertisedName

variable (d : NameDigest)

/-- `wire_names`: a wire name that comes again takes the new name. -/
def wireNames (schemas : List Document) : List (List Char × List Char) :=
  (advertised schemas).foldl (fun table name => (toWireName d name, name) :: table) []

/-- `_platform_name`. -/
def platformName (wire : List Char) (names : List (List Char × List Char)) : List Char :=
  (names.lookup wire).getD (fromWireName wire)

/-- `_renamed_schema`. -/
def renamedSchema (schema : Document) : Document :=
  match schema.lookup "function" with
  | some (.object signature) =>
    match signature.lookup "name" with
    | some (.string name) =>
      JsonText.setField schema
        ("function", .object (JsonText.setField signature ("name", .string (String.ofList (toWireName d name.toList)))))
    | _ => schema
  | _ => schema

end Tables

section Advertised

def builtInNames : List (List Char) :=
  ["shell.exec".toList, "platform.wait".toList, "skill.load".toList, "skill.propose".toList, "memory.remember".toList,
    "session.search".toList, "agent.delegate".toList, "artifact.read".toList, "todo.write".toList, "site.publish".toList,
    "file.send".toList, "file.read".toList, "file.write".toList, "file.list".toList]

def Registered (name : List Char) : Prop := isName name = true ∧ name.length ≤ nameMaxLength

/-- The names that the platform advertises: its own tools, and whatever registered tools and servers offer. -/
inductive Advertisable : List Char → Prop
  | builtIn {name : List Char} (h : name ∈ builtInNames) : Advertisable name
  | http {tool : List Char} (h : Registered tool) (operation : List Char) : Advertisable (callName httpKind tool operation)
  | mcp {server : List Char} (h : Registered server) (tool : List Char) : Advertisable (callName mcpKind server tool)

/-- A word of letters, a dot, and a letter or digit: every name begins so. -/
structure Opening (name kind : List Char) (c : Char) (rest : List Char) : Prop where
  name_eq : name = kind ++ '.' :: c :: rest
  letters : kind.all Char.isAlphanum = true
  short : kind.length ≤ 52
  alphanum : c.isAlphanum = true

theorem alphanum_of_label {c : Char} (h : isLabelChar c = true) : c.isAlphanum = true := by
  simp only [isLabelChar, Bool.or_eq_true, Bool.and_eq_true, decide_eq_true_eq] at h
  simp only [Char.isAlphanum, Char.isAlpha, Char.isUpper, Char.isLower, Char.isDigit, Bool.or_eq_true, Bool.and_eq_true,
    decide_eq_true_eq, ge_iff_le, UInt32.le_iff_toNat_le]
  exact h.imp .inr id

theorem nameBehind_head {name : List Char} (h : nameBehind true name = true) :
    ∃ c rest, name = c :: rest ∧ c.isAlphanum = true := by
  cases name with
  | nil => cases h
  | cons c rest =>
    rw [nameBehind] at h
    split_ifs at h with hdash
    · cases h
    · exact ⟨c, rest, rfl, alphanum_of_label (Bool.and_eq_true_iff.mp h).1⟩

theorem Registered.head {name : List Char} (h : Registered name) : ∃ c rest, name = c :: rest ∧ c.isAlphanum = true := by
  obtain hname | hbroken := Bool.or_eq_true_iff.mp h.1
  · exact nameBehind_head hname
  · obtain ⟨hlast, hfront⟩ := Bool.and_eq_true_iff.mp hbroken
    obtain ⟨c, rest, hrest, hc⟩ := nameBehind_head hfront
    have hwhole := List.dropLast_append_getLast? '\n' (beq_iff_eq.mp hlast)
    rw [hrest] at hwhole
    exact ⟨c, rest ++ ['\n'], hwhole.symm, hc⟩

/-- What a name of the registry begins with, read off it. -/
def opens (name : List Char) : Bool :=
  decide ((name.takeWhile Char.isAlphanum).length ≤ 52) &&
    match name.dropWhile Char.isAlphanum with
    | '.' :: c :: _ => c.isAlphanum
    | _ => false

theorem opening_of_opens {name : List Char} (h : opens name = true) : ∃ kind c rest, Opening name kind c rest := by
  obtain ⟨hshort, hbehind⟩ := Bool.and_eq_true_iff.mp h
  split at hbehind
  · rename_i c rest hdrop
    refine ⟨name.takeWhile Char.isAlphanum, c, rest, ?_, List.all_takeWhile, of_decide_eq_true hshort, hbehind⟩
    rw [← hdrop, List.takeWhile_append_dropWhile]
  · cases hbehind

theorem builtInNames_open : ∀ name ∈ builtInNames, opens name = true := by decide

theorem Advertisable.opening {name : List Char} (h : Advertisable name) : ∃ kind c rest, Opening name kind c rest := by
  cases h with
  | builtIn h => exact opening_of_opens (builtInNames_open name h)
  | http h operation =>
    obtain ⟨c, rest, rfl, hc⟩ := h.head
    exact ⟨httpKind, c, rest ++ '.' :: operation, rfl, by decide, by decide, hc⟩
  | mcp h tool =>
    obtain ⟨c, rest, rfl, hc⟩ := h.head
    exact ⟨mcpKind, c, rest ++ '.' :: tool, rfl, by decide, by decide, hc⟩

end Advertised

section Names
variable {d : NameDigest} {name other : List Char}

theorem replaceFrom_single (a : Char) (new text : List Char) :
    replaceFrom [a] new 0 text = text.flatMap fun c => if c = a then new else [c] := by
  induction text with
  | nil => rfl
  | cons c rest ih =>
    rw [replaceFrom, List.flatMap_cons, ← ih]
    by_cases hc : c = a
    · subst hc
      rw [if_pos rfl, if_pos (by simp)]
      rfl
    · rw [if_neg hc, if_neg (by simpa using fun h => hc h.symm)]
      rfl

theorem isWireChar_alphanum {c : Char} (h : c.isAlphanum = true) : isWireChar c = true := by
  rw [isWireChar, h]
  rfl

theorem not_mem_letters {kind : List Char} {a : Char} (h : kind.all Char.isAlphanum = true) (ha : a.isAlphanum = false) :
    a ∉ kind := by
  intro hmem
  rw [List.all_eq_true.mp h a hmem] at ha
  cases ha

theorem replaceFrom_dot {kind : List Char} (h : kind.all Char.isAlphanum = true) (new rest : List Char) :
    replaceFrom ['.'] new 0 (kind ++ '.' :: rest) = kind ++ (new ++ replaceFrom ['.'] new 0 rest) := by
  have hkind : (kind.flatMap fun c => if c = '.' then new else [c]) = kind := by
    have hsame : ∀ c ∈ kind, (if c = '.' then new else [c]) = [c] := fun c hc =>
      if_neg fun hdot => not_mem_letters h (by decide) (hdot ▸ hc)
    rw [List.flatMap_congr hsame, List.flatMap_singleton']
  rw [replaceFrom_single, replaceFrom_single, List.flatMap_append, hkind, List.flatMap_cons, if_pos rfl]

theorem Opening.plainName {kind rest : List Char} {c : Char} (h : Opening name kind c rest) :
    ∃ more, WireNames.plainName name = kind ++ '_' :: '_' :: more := by
  rw [h.name_eq, WireNames.plainName, replaceFrom_dot h.letters]
  exact ⟨_, rfl⟩

theorem Opening.hashedName {kind rest : List Char} {c : Char} (h : Opening name kind c rest) :
    ∃ more, WireNames.hashedName d name = kind ++ '_' :: c :: more := by
  have hdot : c ≠ '.' := by
    rintro rfl
    exact absurd h.alphanum (by decide)
  have hkind : (kind.map fun c => if isWireChar c then c else '_') = kind := by
    have hsame : ∀ c ∈ kind, (if isWireChar c then c else '_') = id c := fun c hc =>
      if_pos (isWireChar_alphanum (List.all_eq_true.mp h.letters c hc))
    rw [List.map_congr_left hsame, List.map_id]
  have hcleaned : ∃ behind, cleaned name = kind ++ '_' :: c :: behind := by
    rw [cleaned, h.name_eq, replaceFrom_dot h.letters, replaceFrom_single, List.flatMap_cons, if_neg hdot, List.map_append, hkind,
      List.map_append, List.map_append, List.map_singleton, List.map_singleton, if_pos (isWireChar_alphanum h.alphanum)]
    exact ⟨_, rfl⟩
  obtain ⟨_, hcleaned⟩ := hcleaned
  obtain ⟨n, hn⟩ : ∃ n, 54 - kind.length = n + 2 := ⟨52 - kind.length, by have := h.short; omega⟩
  rw [WireNames.hashedName, hcleaned, List.take_append, List.take_of_length_le (h.short.trans (by decide)), hn, List.append_assoc]
  exact ⟨_, rfl⟩

theorem plain_ne_hashed (hname : Advertisable name) (hother : Advertisable other) : plainName name ≠ hashedName d other := by
  obtain ⟨_, _, _, hopen⟩ := hname.opening
  obtain ⟨_, _, _, hopen'⟩ := hother.opening
  obtain ⟨_, hplain⟩ := hopen.plainName
  obtain ⟨_, hhashed⟩ := hopen'.hashedName (d := d)
  have hdash : ('_' : Char).isAlphanum = false := by decide
  intro hsame
  rw [hplain, hhashed] at hsame
  obtain ⟨_, hbehind⟩ := Keys.parts_of_joined (not_mem_letters hopen.letters hdash) (not_mem_letters hopen'.letters hdash) hsame
  obtain ⟨rfl, _⟩ := List.cons.inj hbehind
  exact absurd hopen'.alphanum (by decide)

theorem hex_wire {c : Char} (h : (c.isDigit || ('a' ≤ c && c ≤ 'f')) = true) : isWireChar c = true := by
  apply isWireChar_alphanum
  rw [Char.isAlphanum, Bool.or_eq_true]
  refine (Bool.or_eq_true_iff.mp h).symm.imp (fun hletter => ?_) id
  simp only [Bool.and_eq_true, decide_eq_true_eq, Char.le_def, UInt32.le_iff_toNat_le] at hletter
  simp only [Char.isAlpha, Char.isLower, Bool.or_eq_true, Bool.and_eq_true, decide_eq_true_eq, ge_iff_le, UInt32.le_iff_toNat_le]
  exact .inr ⟨hletter.1, hletter.2.trans (by decide)⟩

theorem hashedName_wire (d : NameDigest) (name : List Char) : isWireName (hashedName d name) = true := by
  have hlength : (hashedName d name).length ≤ 64 := by
    rw [hashedName, List.length_append, List.length_take, List.length_cons, List.length_cons, d.length_digest]
    omega
  have hcleaned : ∀ c ∈ cleaned name, isWireChar c = true := by
    intro c hc
    obtain ⟨_, _, rfl⟩ := List.mem_map.mp hc
    split_ifs with hwire
    · exact hwire
    · rfl
  have hall : ∀ c ∈ hashedName d name, isWireChar c = true := by
    intro c hc
    rcases List.mem_append.mp hc with hc | hc
    · exact hcleaned c (List.mem_of_mem_take hc)
    · rcases List.mem_cons.mp hc with rfl | hc
      · rfl
      · rcases List.mem_cons.mp hc with rfl | hc
        · rfl
        · exact hex_wire (List.all_eq_true.mp (d.hex_digest name) c hc)
  have hne : (hashedName d name).isEmpty = false := by
    rw [List.isEmpty_eq_false_iff, hashedName]
    exact List.append_ne_nil_of_right_ne_nil _ (List.cons_ne_nil _ _)
  rw [isWireName, hne, decide_eq_true hlength, List.all_eq_true.mpr hall]
  rfl

theorem toWireName_wire (d : NameDigest) (name : List Char) : isWireName (toWireName d name) = true := by
  rw [toWireName]
  split_ifs with hplain
  · exact (Bool.and_eq_true_iff.mp hplain).1
  · exact hashedName_wire d name

theorem hashedName_digest (h : hashedName d name = hashedName d other) : d.digest name = d.digest other := by
  have hlength : ('_' :: 'h' :: d.digest name).length = ('_' :: 'h' :: d.digest other).length := by
    rw [List.length_cons, List.length_cons, List.length_cons, List.length_cons, d.length_digest, d.length_digest]
  have htail := List.append_inj_right' h hlength
  exact (List.cons.inj (List.cons.inj htail).2).2

theorem toWireName_inj (hname : Advertisable name) (hother : Advertisable other)
    (hhash : d.digest name = d.digest other → name = other) (h : toWireName d name = toWireName d other) : name = other := by
  rw [toWireName, toWireName] at h
  split_ifs at h with hplain hplain'
  · have hback := beq_iff_eq.mp (Bool.and_eq_true_iff.mp hplain).2
    have hback' := beq_iff_eq.mp (Bool.and_eq_true_iff.mp hplain').2
    rw [← hback, h, hback']
  · exact absurd h (plain_ne_hashed hname hother)
  · exact absurd h.symm (plain_ne_hashed hother hname)
  · exact hhash (hashedName_digest h)

theorem lookup_named {f : List Char → List Char} {names : List (List Char)} {table : List (List Char × List Char)}
    (hmem : name ∈ names ∨ table.lookup (f name) = some name) (hinj : ∀ m ∈ names, f m = f name → m = name) :
    (names.foldl (fun table m => (f m, m) :: table) table).lookup (f name) = some name := by
  induction names generalizing table with
  | nil => exact hmem.resolve_left List.not_mem_nil
  | cons m rest ih =>
    refine ih ?_ fun m' hm' => hinj m' (List.mem_cons_of_mem _ hm')
    by_cases hsame : f m = f name
    · obtain rfl := hinj m List.mem_cons_self hsame
      exact .inr (by simp)
    · rcases hmem with hmem | htable
      · obtain rfl | hrest := List.mem_cons.mp hmem
        · exact absurd rfl hsame
        · exact .inl hrest
      · refine .inr ?_
        rw [List.lookup_cons, beq_false_of_ne (Ne.symm hsame)]
        exact htable

theorem renamedSchema_name (d : NameDigest) (schema : Document) :
    advertisedName (renamedSchema d schema) = (advertisedName schema).map (toWireName d) := by
  rw [renamedSchema]
  split
  · rename_i signature hfunction
    split
    · rename_i name hname
      have hnew : advertisedName (JsonText.setField schema ("function", .object (JsonText.setField signature
          ("name", .string (String.ofList (toWireName d name.toList)))))) = some (toWireName d name.toList) := by
        rw [advertisedName, JsonText.lookup_setField]
        dsimp only
        rw [JsonText.lookup_setField]
        dsimp only
        rw [String.toList_ofList]
      have hold : advertisedName schema = some name.toList := by
        rw [advertisedName, hfunction]
        dsimp only
        rw [hname]
      rw [hnew, hold]
      rfl
    · rename_i hname
      have hnone : advertisedName schema = none := by
        rw [advertisedName, hfunction]
        dsimp only
        split
        · rename_i name hsome
          exact absurd hsome (hname name)
        · rfl
      rw [hnone]
      rfl
  · rename_i hfunction
    have hnone : advertisedName schema = none := by
      rw [advertisedName]
      split
      · rename_i signature hsome
        exact absurd hsome (hfunction signature)
      · rfl
    rw [hnone]
    rfl

end Names

section RoundTrip

/-- Names that the platform advertises are shown as names that are accepted, each its own and no escaped one a hashed one, and read
back as themselves. -/
theorem wire_names_round_trip (d : NameDigest) (schemas : List Document) (hnames : ∀ name ∈ advertised schemas, Advertisable name)
    (hhash : ∀ a ∈ advertised schemas, ∀ b ∈ advertised schemas, d.digest a = d.digest b → a = b) :
    (∀ schema ∈ schemas, advertisedName (renamedSchema d schema) = (advertisedName schema).map (toWireName d)) ∧
      ∀ name ∈ advertised schemas, isWireName (toWireName d name) = true ∧
        (∀ other ∈ advertised schemas, other ≠ name → toWireName d other ≠ toWireName d name) ∧
        (∀ other ∈ advertised schemas, plainName name ≠ hashedName d other) ∧
        platformName (toWireName d name) (wireNames d schemas) = name := by
  refine ⟨fun schema _ => renamedSchema_name d schema, fun name hname => ⟨toWireName_wire d name, ?_, ?_, ?_⟩⟩
  · exact fun other hother hne hsame => hne (toWireName_inj (hnames other hother) (hnames name hname) (hhash other hother name hname) hsame)
  · exact fun other hother => plain_ne_hashed (hnames name hname) (hnames other hother)
  · have hinj : ∀ other ∈ advertised schemas, toWireName d other = toWireName d name → other = name := fun other hother hsame =>
      toWireName_inj (hnames other hother) (hnames name hname) (hhash other hother name hname) hsame
    rw [platformName, wireNames, lookup_named (.inl hname) hinj]
    rfl

def sampleDigest : NameDigest where
  digest name := if name = "mcp.wiki.find__all".toList then "9eb1f846".toList else "3dca4690".toList
  length_digest name := by split_ifs <;> rfl
  hex_digest name := by split_ifs <;> decide

def sampleSchema (name : String) : Document := [("type", .string "function"), ("function", .object [("name", .string name)])]

/-- A tool of a server whose name holds the separator itself, next to one of the platform's own. -/
theorem wire_names_round_trip_find :
    platformName (toWireName sampleDigest "mcp.wiki.find__all".toList)
      (wireNames sampleDigest [sampleSchema "shell.exec", sampleSchema "mcp.wiki.find__all"]) = "mcp.wiki.find__all".toList := by
  have hwiki : Registered "wiki".toList := by
    unfold Registered
    decide
  have hall : ∀ name ∈ advertised [sampleSchema "shell.exec", sampleSchema "mcp.wiki.find__all"], Advertisable name := by
    intro _ hname
    rcases List.mem_cons.mp hname with rfl | hname
    · exact .builtIn List.mem_cons_self
    · obtain rfl := List.mem_singleton.mp hname
      exact .mcp hwiki "find__all".toList
  have hhash : ∀ a ∈ advertised [sampleSchema "shell.exec", sampleSchema "mcp.wiki.find__all"],
      ∀ b ∈ advertised [sampleSchema "shell.exec", sampleSchema "mcp.wiki.find__all"],
      sampleDigest.digest a = sampleDigest.digest b → a = b := by
    decide
  obtain ⟨_, _, _, hback⟩ := (wire_names_round_trip sampleDigest _ hall hhash).2 "mcp.wiki.find__all".toList
    (List.mem_cons_of_mem _ List.mem_cons_self)
  exact hback

example : toWireName sampleDigest "mcp.wiki.find__all".toList = "mcp_wiki_find__all_h9eb1f846".toList := by decide

end RoundTrip

end TinyHermes.Runs.WireNames
