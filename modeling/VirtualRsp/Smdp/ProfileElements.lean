import VirtualRsp.Foundations.Grouping
import VirtualRsp.Foundations.Memory
import VirtualRsp.Foundations.Program
import VirtualRsp.Foundations.Run

/-!
# The elements of a profile and their indexes

A `ProfileElementSequence` keeps the elements of a profile in a list, and two dictionaries for it:
the elements of each type, and the runs of elements of each network access application. Both are
built again after every change of the list. The second one is not emptied before (the source resets
an attribute of another name), so the runs of every earlier list stay in it. Bytes that do not parse
leave the list behind that was read so far, with the dictionaries of the list before.

* `Event`: the calls that change the sequence;
* `Consistent`: the dictionaries are those of the list;
* `index_iff`: in which runs they always are.
-/

namespace VirtualRsp.Smdp.ProfileElements

open Grouping Program

/-! ## Elements -/

/-- An element is an object; lists and dictionaries hold references. -/
abbrev Ref := ℕ

/-- The header of an element: whether it has `mandated`, and `identification` if it has it. -/
structure Header where
  mandated : Bool
  identification : Option (Option ℕ)

/-- A header is not an empty dictionary. -/
def Header.truthy (hdr : Header) : Bool := hdr.mandated || hdr.identification.isSome

/-- An entry of a list of object identifiers: a text, or an `OID` with its numbers. -/
inductive OidItem
  | text (s : String)
  | oid (intlist : List ℕ)

/-- `OID.str_from_intlist`. -/
def strFromIntlist (intlist : List ℕ) : String := ".".intercalate (intlist.map toString)

/-- `str` of an entry. -/
def OidItem.str : OidItem → String
  | .text s => s
  | .oid intlist => strFromIntlist intlist

/-- `OID.prefix_match`. -/
def prefixMatch (template : List ℕ) (item : OidItem) : Bool :=
  (strFromIntlist template).toList.isPrefixOf item.str.toList

/-- `template in items`: `OID.__eq__` raises on a text. -/
def containsOid (template : List ℕ) : List OidItem → Option Bool
  | [] => some false
  | .oid intlist :: items => if template = intlist then some true else containsOid template items
  | .text _ :: _ => none

/-- What is read of an element: its type, its header, its template, the two lists of a profile
header, the name that `File` reads from an ADF of the element (no result is an exception), and the
AID of `adfRFMAccess`. -/
structure ProfileElement where
  type : String
  header : Option Header
  templateID : Option String
  mandatoryServices : Option (List String)
  mandatoryGfsteList : Option (List OidItem)
  dfName : String → Option (Option Bytes)
  adfAID : Option Bytes

/-- A network access application. -/
structure Naa where
  name : String
  peTypes : List String
  templates : List (List ℕ)
  mandatoryServices : List String

/-! ## The sequence -/

/-- A `ProfileElementSequence`, with the objects that exist, and the file system of the profile. -/
structure ProfileElementSequence (φ : Type) where
  objects : Ref → ProfileElement
  next : Ref
  peList : List Ref
  peByType : String → Option (List Ref)
  pesByNaa : String → Option (List (List Ref))
  files : φ

variable {φ : Type}

namespace ProfileElementSequence

/-- The type of an element. -/
def type (s : ProfileElementSequence φ) (pe : Ref) : String := (s.objects pe).type

/-- Change an element. -/
def setObject (s : ProfileElementSequence φ) (pe : Ref) (f : ProfileElement → ProfileElement) :
    ProfileElementSequence φ :=
  { s with objects := Function.update s.objects pe (f (s.objects pe)) }

/-- `_rebuild_pe_by_type`. -/
def rebuildPeByType (s : ProfileElementSequence φ) : ProfileElementSequence φ :=
  { s with peByType := appendAll s.type (fun _ => none) s.peList }

end ProfileElementSequence

/-- `petype_not_naa_related`. -/
def petypeNotNaaRelated : List String := ["securityDomain", "rfm", "application", "end"]

/-- `naa`. -/
def naaTypes : List String := ["mf", "usim", "isim", "csim"]

/-- The variables of the loop over the elements. -/
structure NaaLoop where
  curNaa : Option String
  curNaaList : List Ref
  pesByNaa : String → Option (List (List Ref))

/-- Store the elements of the current application. -/
def NaaLoop.store (l : NaaLoop) : String → Option (List (List Ref)) :=
  match l.curNaa with
  | none => l.pesByNaa
  | some curNaa => appendTo l.pesByNaa curNaa l.curNaaList

/-- Store the last run, if it has an element. -/
def NaaLoop.finish (l : NaaLoop) : String → Option (List (List Ref)) :=
  if l.curNaaList = [] then l.pesByNaa else l.store

/-- One round of the loop. -/
def naaStep (type : Ref → String) (l : NaaLoop) (pe : Ref) : NaaLoop :=
  if type pe ∈ petypeNotNaaRelated then l
  else
    let l := if type pe ∈ naaTypes then ⟨some (type pe), [], l.store⟩ else l
    { l with curNaaList := l.curNaaList ++ [pe] }

/-- `renumber_identification`, with the number of the next header. -/
def renumberFrom : ℕ → List Ref → (Ref → ProfileElement) → Ref → ProfileElement
  | _, [], objects => objects
  | i, pe :: peList, objects =>
    match (objects pe).header with
    | none => renumberFrom i peList objects
    | some hdr =>
      if hdr.truthy then
        renumberFrom (i + 1) peList (Function.update objects pe
          { objects pe with header := some { hdr with identification := some (some i) } })
      else renumberFrom i peList objects

namespace ProfileElementSequence

/-- `_rebuild_pes_by_naa`. The dictionary that it starts with is the one that is there. -/
def rebuildPesByNaa (s : ProfileElementSequence φ) : ProfileElementSequence φ :=
  { s with pesByNaa := (s.peList.foldl (naaStep s.type) ⟨none, [], s.pesByNaa⟩).finish }

/-- `_process_pelist`. -/
def processPelist (s : ProfileElementSequence φ) : ProfileElementSequence φ :=
  s.rebuildPeByType.rebuildPesByNaa

/-- `renumber_identification`. -/
def renumberIdentification (s : ProfileElementSequence φ) : ProfileElementSequence φ :=
  { s with objects := renumberFrom 1 s.peList s.objects }

end ProfileElementSequence

/-! ## Calls that insert -/

/-- `append`. -/
def append (pe : Ref) : Program (ProfileElementSequence φ) Unit := alter fun s =>
  { s with peList := s.peList ++ [pe] }.processPelist.renumberIdentification

/-- `list.insert`: a negative index counts from the end, and an index outside is the nearest end. -/
def listInsert {α : Type} (xs : List α) (idx : ℤ) (x : α) : List α :=
  let i := if idx < 0 then (xs.length + idx).toNat else idx.toNat
  xs.take i ++ x :: xs.drop i

/-- `insert_at_index`. -/
def insertAtIndex (idx : ℤ) (pe : Ref) : Program (ProfileElementSequence φ) Unit := alter fun s =>
  { s with peList := listInsert s.peList idx pe }.processPelist.renumberIdentification

/-- `get_index_by_pe`. -/
def getIndexByPe (s : ProfileElementSequence φ) (pe : Ref) : Option ℕ :=
  if pe ∈ s.peList then some (s.peList.idxOf pe) else none

/-- `insert_after_pe`. -/
def insertAfterPe (peBefore peNew : Ref) : Program (ProfileElementSequence φ) Unit := do
  let idx ← fetch fun s => getIndexByPe s peBefore
  insertAtIndex (idx + 1) peNew

/-- `get_index_by_type`. -/
def getIndexByType (s : ProfileElementSequence φ) (petype : String) : List ℕ :=
  (List.range s.peList.length).filter fun i => (s.peList[i]?.map s.type) = some petype

/-- `add_ssd`. -/
def addSsd (ssd : Ref) : Program (ProfileElementSequence φ) Unit := do
  let idx ← fetch fun s => (getIndexByType s "securityDomain").head?
  insertAtIndex (idx + 1) ssd

/-! ## Removing the applications of a type -/

/-- Remove a service from the mandatory ones of the header. -/
def dropService (hdr : Ref) (service : String) : Program (ProfileElementSequence φ) Unit := fun s =>
  match (s.objects hdr).mandatoryServices with
  | none => some (s, none)
  | some services => some (s.setObject hdr fun pe =>
      { pe with mandatoryServices := some (services.filter (· ≠ service)) }, some ())

/-- Remove a template, and what is below it, from the mandatory ones of the header. -/
def dropTemplate (hdr : Ref) (template : List ℕ) : Program (ProfileElementSequence φ) Unit :=
  fun s => match (s.objects hdr).mandatoryGfsteList with
    | none => some (s, none)
    | some items => match containsOid template items with
      | none => some (s, none)
      | some false => some (s, some ())
      | some true => some (s.setObject hdr fun pe =>
          { pe with mandatoryGfsteList := some (items.filter fun x => !prefixMatch template x) },
        some ())

/-- The names of the ADFs of the applications. -/
def naaAdfNames (naa : Naa) (s : ProfileElementSequence φ) : Option (List (Option Bytes)) := do
  let petype ← naa.peTypes.head?
  match s.peByType petype with
  | none => some []
  | some pes => pes.mapM fun pe => do
    let service ← naa.mandatoryServices.head?
    (s.objects pe).dfName ("adf-" ++ service)

/-- The part of `remove_naas_of_type` before the list changes. -/
def prepareRemoval (naa : Naa) : Program (ProfileElementSequence φ) (List (Option Bytes)) := do
  let hdr ← fetch fun s => (s.peByType "header").bind List.head?
  each (dropService hdr) naa.mandatoryServices
  each (dropTemplate hdr) naa.templates
  fetch (naaAdfNames naa)

/-- Remove the elements of each application. -/
def removeInstances (naa : Naa) (s : ProfileElementSequence φ) : ProfileElementSequence φ :=
  let insts := (s.pesByNaa naa.name).getD []
  { s with peList := insts.foldl (fun peList inst => peList.filter (· ∉ inst)) s.peList }

/-- Remove the RFM elements for the ADFs. -/
def removeRfm (naaAdfNames : List (Option Bytes)) (s : ProfileElementSequence φ) :
    ProfileElementSequence φ :=
  let toDeletePes := ((s.peByType "rfm").getD []).filter fun rfmPe =>
    (s.objects rfmPe).adfAID.any fun adfAID => some adfAID ∈ naaAdfNames
  { s with peList := s.peList.filter (· ∉ toDeletePes) }

/-- `remove_naas_of_type`. -/
def removeNaasOfType (naa : Naa) : Program (ProfileElementSequence φ) Unit := do
  let naaAdfNames ← prepareRemoval naa
  alter fun s => (removeInstances naa s).processPelist
  alter fun s => (removeRfm naaAdfNames s).processPelist

/-! ## Parsing -/

/-- What the server takes from its libraries: the tag and the length at the start of BER data, which
take octets, and an element from its encoding (`ProfileElement.from_der`), which may change the file
system of the sequence. No result is an exception. -/
structure Decoders (φ : Type) where
  /-- What follows the tag. -/
  parseTag : Bytes → Option Bytes
  /-- The length, and what follows it. -/
  parseLen : Bytes → Option (ℕ × Bytes)
  fromDer : Bytes → ProfileElementSequence φ → φ × Option ProfileElement
  parseTag_lt : ∀ bs r, parseTag bs = some r → r.length < bs.length
  parseLen_lt : ∀ bs n r, parseLen bs = some (n, r) → r.length < bs.length

/-- `bertlv_first_segment`. -/
def bertlvFirstSegment (p : Decoders φ) (binary : Bytes) : Option (Bytes × Bytes) := do
  let remainder ← p.parseTag binary
  let (length, remainder) ← p.parseLen remainder
  let tlLength := binary.length - remainder.length
  let tlvLength := tlLength + length
  return (binary.take tlvLength, binary.drop tlvLength)

/-- Make an object for an element, and append it to the list. -/
def appendParsed (p : Decoders φ) (firstTlv : Bytes) : Program (ProfileElementSequence φ) Unit :=
  fun s =>
    let (files, pe) := p.fromDer firstTlv s
    match pe with
    | none => some ({ s with files := files }, none)
    | some pe => some ({ s with
        files := files
        objects := Function.update s.objects s.next pe
        next := s.next + 1
        peList := s.peList ++ [s.next] }, some ())

/-- Parse the first element; what remains. -/
def parseElement (p : Decoders φ) (remainder : Bytes) :
    Program (ProfileElementSequence φ) Bytes := do
  let (firstTlv, remainder) ← .ofOption (bertlvFirstSegment p remainder)
  appendParsed p firstTlv
  return remainder

/-- The loop over the elements. -/
def parseLoop (p : Decoders φ) : ℕ → Bytes → Program (ProfileElementSequence φ) Unit
  | 0, _ => fun _ => none
  | fuel + 1, remainder =>
    if remainder = [] then pure ()
    else do
      let remainder ← parseElement p remainder
      parseLoop p fuel remainder

/-- The elements of the list that `parse_der` starts with. -/
def parseElements (p : Decoders φ) (der : Bytes) : Program (ProfileElementSequence φ) Unit :=
  parseLoop p (der.length + 1) der

/-- `parse_der`. -/
def parseDer (p : Decoders φ) (der : Bytes) : Program (ProfileElementSequence φ) Unit := do
  alter fun s => { s with peList := [] }
  parseElements p der
  alter ProfileElementSequence.processPelist

/-! ## Runs -/

/-- A call; the caller also makes elements. -/
inductive Event
  | create (pe : ProfileElement)
  | append (pe : Ref)
  | insertAtIndex (idx : ℤ) (pe : Ref)
  | insertAfterPe (peBefore peNew : Ref)
  | addSsd (ssd : Ref)
  | removeNaasOfType (naa : Naa)
  | parseDer (der : Bytes)

/-- The references that a call passes. -/
def Event.refs : Event → List Ref
  | .append pe => [pe]
  | .insertAtIndex _ pe => [pe]
  | .insertAfterPe peBefore peNew => [peBefore, peNew]
  | .addSsd ssd => [ssd]
  | _ => []

/-- The program of a call. -/
def Event.run (p : Decoders φ) : Event → Program (ProfileElementSequence φ) Unit
  | .create pe => alter fun s =>
    { s with objects := Function.update s.objects s.next pe, next := s.next + 1 }
  | .append pe => ProfileElements.append pe
  | .insertAtIndex idx pe => ProfileElements.insertAtIndex idx pe
  | .insertAfterPe peBefore peNew => ProfileElements.insertAfterPe peBefore peNew
  | .addSsd ssd => ProfileElements.addSsd ssd
  | .removeNaasOfType naa => ProfileElements.removeNaasOfType naa
  | .parseDer der => ProfileElements.parseDer p der

/-- A call with elements that exist; an exception leaves the state that it has reached. -/
def step (p : Decoders φ) (s : ProfileElementSequence φ) (e : Event) :
    Option (ProfileElementSequence φ) :=
  if ∀ pe ∈ e.refs, pe < s.next then (e.run p s).map Prod.fst else none

/-- A new sequence. -/
def start (files : φ) : ProfileElementSequence φ :=
  ⟨fun _ => ⟨"", none, none, none, none, fun _ => none, none⟩, 0, [], fun _ => none, fun _ => none,
    files⟩

/-! ## Consistent indexes -/

namespace ProfileElementSequence

/-- The elements of the list that are related to applications. -/
def related (s : ProfileElementSequence φ) : List Ref :=
  s.peList.filter fun pe => s.type pe ∉ petypeNotNaaRelated

/-- An application starts with this element. -/
def isNaa (s : ProfileElementSequence φ) (pe : Ref) : Bool := s.type pe ∈ naaTypes

/-- The type of the first element of a run. -/
def naaOf (s : ProfileElementSequence φ) (run : List Ref) : String :=
  (run.head?.map s.type).getD ""

/-- The dictionaries are those of the list: `pe_by_type` has for each type its elements, in order,
and `pes_by_naa` has for each application the runs that start with it, in order. The runs are the
elements that are related to applications, cut where one starts; what comes before the first start
(the profile header, for one) is in no run. A key without elements is not there. -/
structure Consistent (s : ProfileElementSequence φ) : Prop where
  byType : ∀ petype, s.peByType petype = unlessNil (s.peList.filter fun pe => s.type pe = petype)
  byNaa : ∃ leading runs, IsRuns s.isNaa s.related leading runs ∧
    ∀ naa, s.pesByNaa naa = unlessNil (runs.filter fun run => s.naaOf run = naa)

/-- No application starts in the list. -/
def NoNaa (s : ProfileElementSequence φ) : Prop := ∀ pe ∈ s.peList, s.isNaa pe = false

/-- The runs of the list that start with an application. -/
def runsOf (s : ProfileElementSequence φ) (naa : String) : List (List Ref) :=
  (splitRuns s.isNaa s.related).2.filter fun run => s.naaOf run = naa

variable {s s' : ProfileElementSequence φ}

theorem consistent_iff : s.Consistent ↔
    (∀ petype, s.peByType petype = unlessNil (s.peList.filter fun pe => s.type pe = petype)) ∧
      ∀ naa, s.pesByNaa naa = unlessNil (s.runsOf naa) := by
  constructor
  · rintro ⟨hbyType, leading, runs, hruns, hbyNaa⟩
    refine ⟨hbyType, fun naa => ?_⟩
    rw [runsOf, hruns.unique]
    exact hbyNaa naa
  · rintro ⟨hbyType, hbyNaa⟩
    exact ⟨hbyType, _, _, isRuns_splitRuns s.isNaa s.related, hbyNaa⟩

theorem isNaa_iff (pe : Ref) : s.isNaa pe = true ↔ s.type pe ∈ naaTypes := decide_eq_true_iff

theorem naaStep_not_related {type : Ref → String} {pe : Ref} (h : type pe ∈ petypeNotNaaRelated)
    (l : NaaLoop) : naaStep type l pe = l := if_pos h

theorem naaStep_start {type : Ref → String} {pe : Ref} (hr : type pe ∉ petypeNotNaaRelated)
    (h : type pe ∈ naaTypes) (l : NaaLoop) :
    naaStep type l pe = ⟨some (type pe), [pe], l.store⟩ := by
  rw [naaStep, if_neg hr, if_pos h]
  rfl

theorem naaStep_other {type : Ref → String} {pe : Ref} (hr : type pe ∉ petypeNotNaaRelated)
    (h : type pe ∉ naaTypes) (l : NaaLoop) :
    naaStep type l pe = { l with curNaaList := l.curNaaList ++ [pe] } := by
  rw [naaStep, if_neg hr, if_neg h]

/-- The loop skips what is not related. -/
theorem foldl_naaStep_filter (type : Ref → String) (peList : List Ref) (l : NaaLoop) :
    peList.foldl (naaStep type) l =
      (peList.filter fun pe => type pe ∉ petypeNotNaaRelated).foldl (naaStep type) l := by
  induction peList generalizing l with
  | nil => rfl
  | cons pe peList ih =>
    by_cases h : type pe ∈ petypeNotNaaRelated
    · rw [List.foldl_cons, naaStep_not_related h, ih, List.filter_cons_of_neg (by simpa using h)]
    · rw [List.foldl_cons, ih, List.filter_cons_of_pos (by simpa using h), List.foldl_cons]

/-- A run that has begun goes on to the next start. -/
theorem finish_some (s : ProfileElementSequence φ) {xs : List Ref}
    (hxs : ∀ pe ∈ xs, s.type pe ∉ petypeNotNaaRelated) (x : Ref) (l : List Ref)
    (d : String → Option (List (List Ref))) :
    (xs.foldl (naaStep s.type) ⟨some (s.type x), x :: l, d⟩).finish =
      appendAll s.naaOf d
        ((x :: l ++ (splitRuns s.isNaa xs).1) :: (splitRuns s.isNaa xs).2) := by
  induction xs generalizing x l d with
  | nil =>
    rw [splitRuns, List.append_nil]
    rfl
  | cons y xs ih =>
    obtain ⟨hy, hxs⟩ := List.forall_mem_cons.1 hxs
    rw [List.foldl_cons, splitRuns]
    by_cases hstart : s.type y ∈ naaTypes
    · rw [naaStep_start hy hstart, ih hxs, if_pos ((isNaa_iff y).2 hstart), List.append_nil]
      rfl
    · rw [naaStep_other hy hstart, if_neg (mt (isNaa_iff y).1 hstart)]
      refine (ih hxs x (l ++ [y]) d).trans ?_
      rw [List.cons_append, List.append_assoc, List.singleton_append, List.cons_append]

/-- Before the first start, there is no run. -/
theorem finish_none (s : ProfileElementSequence φ) {xs : List Ref}
    (hxs : ∀ pe ∈ xs, s.type pe ∉ petypeNotNaaRelated) (l : List Ref)
    (d : String → Option (List (List Ref))) :
    (xs.foldl (naaStep s.type) ⟨none, l, d⟩).finish =
      appendAll s.naaOf d (splitRuns s.isNaa xs).2 := by
  induction xs generalizing l with
  | nil => exact ite_self _
  | cons y xs ih =>
    obtain ⟨hy, hxs⟩ := List.forall_mem_cons.1 hxs
    rw [List.foldl_cons, splitRuns]
    by_cases hstart : s.type y ∈ naaTypes
    · rw [naaStep_start hy hstart, if_pos ((isNaa_iff y).2 hstart)]
      exact finish_some s hxs y [] d
    · rw [naaStep_other hy hstart, if_neg (mt (isNaa_iff y).1 hstart)]
      exact ih hxs (l ++ [y])

/-- **The dictionary of the runs** keeps what it had. -/
theorem processPelist_pesByNaa {f : String → List (List Ref)}
    (h : s.pesByNaa = fun naa => unlessNil (f naa)) (naa : String) :
    s.processPelist.pesByNaa naa = unlessNil (f naa ++ s.runsOf naa) := by
  change (s.peList.foldl (naaStep s.type) ⟨none, [], s.pesByNaa⟩).finish naa = _
  rw [foldl_naaStep_filter, h,
    finish_none s (fun pe hpe => by simpa using (List.mem_filter.1 hpe).2)]
  exact appendAll_eq s.naaOf _ naa

theorem processPelist_peByType (s : ProfileElementSequence φ) (petype : String) :
    s.processPelist.peByType petype =
      unlessNil (s.peList.filter fun pe => s.type pe = petype) :=
  @appendAll_eq _ _ _ s.type (fun _ => []) s.peList petype

/-- **Building both dictionaries** makes them consistent just if the dictionary of the runs was
empty. -/
theorem processPelist_consistent_iff {f : String → List (List Ref)}
    (h : s.pesByNaa = fun naa => unlessNil (f naa)) :
    s.processPelist.Consistent ↔ ∀ naa, f naa = [] := by
  refine consistent_iff.trans ((and_iff_right (processPelist_peByType s)).trans
    (forall_congr' fun naa => ?_))
  rw [processPelist_pesByNaa h]
  change unlessNil (f naa ++ s.runsOf naa) = unlessNil (s.runsOf naa) ↔ _
  constructor
  · exact fun heq => List.append_left_eq_self.1 (unlessNil_inj heq)
  · intro hnil
    rw [hnil, List.nil_append]

theorem runsOf_eq_nil (h : s.NoNaa) (naa : String) : s.runsOf naa = [] := by
  have hnone := @splitRuns_of_forall _ s.isNaa s.related fun pe hpe =>
    h pe (List.mem_of_mem_filter hpe)
  rw [runsOf, hnone, List.filter_nil]

/-- An application that starts in the list has a run. -/
theorem noNaa_iff : s.NoNaa ↔ ∀ naa, s.runsOf naa = [] := by
  refine ⟨runsOf_eq_nil, fun h pe hpe => ?_⟩
  by_contra hstart
  rw [Bool.not_eq_false] at hstart
  have hrelated : pe ∈ s.related := by
    refine List.mem_filter.2 ⟨hpe, ?_⟩
    have hmem := (isNaa_iff pe).1 hstart
    have hdisjoint : ∀ petype ∈ naaTypes, petype ∉ petypeNotNaaRelated := by decide
    exact decide_eq_true (hdisjoint _ hmem)
  obtain ⟨rest, hrun⟩ := exists_mem_splitRuns hrelated hstart
  have hmem : pe :: rest ∈ s.runsOf (s.type pe) :=
    List.mem_filter.2 ⟨hrun, decide_eq_true rfl⟩
  rw [h] at hmem
  exact absurd hmem List.not_mem_nil

/-! ## What the calls keep -/

/-- Consistency is about the types of the elements in the list. -/
theorem Consistent.congr (h : s.Consistent) (hlist : s'.peList = s.peList)
    (htype : ∀ pe ∈ s.peList, s'.type pe = s.type pe) (hbyType : s'.peByType = s.peByType)
    (hbyNaa : s'.pesByNaa = s.pesByNaa) : s'.Consistent := by
  obtain ⟨hT, leading, runs, hruns, hN⟩ := h
  have hrelated : s'.related = s.related := by
    rw [related, hlist]
    exact List.filter_congr fun pe hpe => by rw [htype pe hpe]
  have hmem : ∀ pe ∈ s.related, s'.type pe = s.type pe := fun pe hpe =>
    htype pe (List.mem_of_mem_filter hpe)
  refine ⟨fun petype => ?_, leading, runs, ?_, fun naa => ?_⟩
  · rw [hbyType, hT, hlist]
    congr 1
    exact List.filter_congr fun pe hpe => by rw [htype pe hpe]
  · rw [hrelated]
    exact hruns.congr fun pe hpe => by rw [isNaa, isNaa, hmem pe hpe]
  · rw [hbyNaa, hN]
    congr 1
    refine List.filter_congr fun run hrun => ?_
    obtain ⟨x, rest, rfl, -, -⟩ := hruns.runs run hrun
    have hx : x ∈ s.related := by
      rw [← hruns.append_flatten]
      exact List.mem_append_right _ (List.mem_flatten.2 ⟨_, hrun, List.mem_cons_self⟩)
    have htype : s'.naaOf (x :: rest) = s.naaOf (x :: rest) := hmem x hx
    rw [htype]

theorem Consistent.pesByNaa_eq (h : s.Consistent) :
    s.pesByNaa = fun naa => unlessNil (s.runsOf naa) :=
  funext (consistent_iff.1 h).2

theorem update_type {objects : Ref → ProfileElement} {x : Ref} {element : ProfileElement}
    (h : element.type = (objects x).type) (pe : Ref) :
    (Function.update objects x element pe).type = (objects pe).type := by
  by_cases hpe : pe = x
  · rw [hpe, Function.update_self, h]
  · rw [Function.update_of_ne hpe]

theorem renumberFrom_type (i : ℕ) (peList : List Ref) (objects : Ref → ProfileElement) (pe : Ref) :
    (renumberFrom i peList objects pe).type = (objects pe).type := by
  induction peList generalizing i objects with
  | nil => rfl
  | cons x peList ih =>
    cases hheader : (objects x).header with
    | none => simp only [renumberFrom, hheader, ih]
    | some hdr =>
      simp only [renumberFrom, hheader]
      split
      · rw [ih, update_type]
        rfl
      · exact ih i objects

/-- Numbering the headers keeps the types. -/
theorem renumber_consistent_iff : s.renumberIdentification.Consistent ↔ s.Consistent := by
  have htype : ∀ pe, s.renumberIdentification.type pe = s.type pe :=
    renumberFrom_type 1 s.peList s.objects
  exact ⟨fun h => h.congr rfl (fun pe _ => (htype pe).symm) rfl rfl,
    fun h => h.congr rfl (fun pe _ => htype pe) rfl rfl⟩

/-- **A call with a new list**: the dictionaries are consistent after it just if no application
started in the list before. -/
theorem Consistent.insert_iff (h : s.Consistent) (peList : List Ref) :
    ({ s with peList := peList }.processPelist.renumberIdentification).Consistent ↔ s.NoNaa := by
  rw [renumber_consistent_iff, noNaa_iff]
  exact processPelist_consistent_iff (s := { s with peList := peList }) h.pesByNaa_eq

/-- What a call does that changes elements, but no type. -/
structure Same (s s' : ProfileElementSequence φ) : Prop where
  type : ∀ pe, s'.type pe = s.type pe
  next : s'.next = s.next
  peList : s'.peList = s.peList
  peByType : s'.peByType = s.peByType
  pesByNaa : s'.pesByNaa = s.pesByNaa

theorem Same.refl (s : ProfileElementSequence φ) : Same s s := ⟨fun _ => rfl, rfl, rfl, rfl, rfl⟩

theorem Same.trans {t : ProfileElementSequence φ} (h : Same s s') (h' : Same s' t) : Same s t :=
  ⟨fun pe => (h'.type pe).trans (h.type pe), h'.next.trans h.next, h'.peList.trans h.peList,
    h'.peByType.trans h.peByType, h'.pesByNaa.trans h.pesByNaa⟩

theorem Same.consistent (h : Same s s') (hs : s.Consistent) : s'.Consistent :=
  hs.congr h.peList (fun pe _ => h.type pe) h.peByType h.pesByNaa

theorem Same.noNaa (h : Same s s') : s'.NoNaa ↔ s.NoNaa := by
  rw [NoNaa, NoNaa, h.peList]
  simp only [isNaa, h.type]

theorem same_setObject {pe : Ref} {f : ProfileElement → ProfileElement}
    (hf : (f (s.objects pe)).type = (s.objects pe).type) : Same s (s.setObject pe f) :=
  ⟨update_type hf, rfl, rfl, rfl, rfl⟩

end ProfileElementSequence

open ProfileElementSequence

theorem dropService_same (hdr : Ref) (service : String) :
    Relates Same (dropService hdr service : Program (ProfileElementSequence φ) Unit) := by
  intro s
  rw [dropService]
  split
  · exact ⟨_, _, rfl, Same.refl s⟩
  · exact ⟨_, _, rfl, same_setObject rfl⟩

theorem dropTemplate_same (hdr : Ref) (template : List ℕ) :
    Relates Same (dropTemplate hdr template : Program (ProfileElementSequence φ) Unit) := by
  intro s
  rw [dropTemplate]
  split
  · exact ⟨_, _, rfl, Same.refl s⟩
  · split
    · exact ⟨_, _, rfl, Same.refl s⟩
    · exact ⟨_, _, rfl, Same.refl s⟩
    · exact ⟨_, _, rfl, same_setObject rfl⟩

/-- The preparation of a removal changes the header, if anything. -/
theorem prepareRemoval_same (naa : Naa) :
    Relates Same (prepareRemoval naa : Program (ProfileElementSequence φ) _) := by
  have htrans : ∀ s t u : ProfileElementSequence φ, Same s t → Same t u → Same s u :=
    fun _ _ _ => Same.trans
  refine Relates.bind htrans (relates_fetch Same.refl _) fun hdr => ?_
  refine Relates.bind htrans (Relates.each Same.refl htrans (dropService_same hdr) _) fun _ => ?_
  refine Relates.bind htrans (Relates.each Same.refl htrans (dropTemplate_same hdr) _) fun _ => ?_
  exact relates_fetch Same.refl _

/-- The call raises no exception before the list changes. -/
def Accepts (naa : Naa) (s : ProfileElementSequence φ) : Prop :=
  ∃ names s', (prepareRemoval naa).Returns s names s'

theorem mem_foldl_filter {insts : List (List Ref)} {peList : List Ref} {pe : Ref}
    (h : pe ∈ insts.foldl (fun peList inst => peList.filter (· ∉ inst)) peList) : pe ∈ peList := by
  induction insts generalizing peList with
  | nil => exact h
  | cons inst insts ih => exact List.mem_of_mem_filter (ih h)

/-- **Removing applications** builds the dictionaries twice. -/
theorem remove_iff {s : ProfileElementSequence φ} (h : s.Consistent) (naa : Naa)
    (names : List (Option Bytes)) :
    ((removeRfm names ((removeInstances naa s).processPelist)).processPelist).Consistent ↔
      s.NoNaa := by
  have hfirst := funext (processPelist_pesByNaa (s := removeInstances naa s) h.pesByNaa_eq)
  refine (processPelist_consistent_iff (s := removeRfm names (removeInstances naa s).processPelist)
    hfirst).trans ?_
  rw [noNaa_iff]
  constructor
  · exact fun hnil naa => (List.append_eq_nil_iff.1 (hnil naa)).1
  · intro hnil naa'
    have hno : (removeInstances naa s).NoNaa := fun pe hpe =>
      noNaa_iff.2 hnil pe (mem_foldl_filter hpe)
    rw [hnil, runsOf_eq_nil hno]
    rfl

/-! ## What parsing keeps -/

/-- The elements that are parsed are new ones, and nothing else changes but the file system. -/
structure Parsed (s s' : ProfileElementSequence φ) : Prop where
  type : ∀ pe < s.next, s'.type pe = s.type pe
  next : s.next ≤ s'.next
  new : ∀ pe ∈ s'.peList, pe ∈ s.peList ∨ s.next ≤ pe
  lt : (∀ pe ∈ s.peList, pe < s.next) → ∀ pe ∈ s'.peList, pe < s'.next
  length : s.peList.length ≤ s'.peList.length
  peByType : s'.peByType = s.peByType
  pesByNaa : s'.pesByNaa = s.pesByNaa

theorem Parsed.refl (s : ProfileElementSequence φ) : Parsed s s :=
  ⟨fun _ _ => rfl, Nat.le_refl _, fun _ => .inl, id, Nat.le_refl _, rfl, rfl⟩

theorem Parsed.trans (s t u : ProfileElementSequence φ) (h : Parsed s t) (h' : Parsed t u) :
    Parsed s u where
  type pe hpe := (h'.type pe (Nat.lt_of_lt_of_le hpe h.next)).trans (h.type pe hpe)
  next := h.next.trans h'.next
  new pe hpe := (h'.new pe hpe).elim (h.new pe) fun hle => .inr (h.next.trans hle)
  lt hs := h'.lt (h.lt hs)
  length := h.length.trans h'.length
  peByType := h'.peByType.trans h.peByType
  pesByNaa := h'.pesByNaa.trans h.pesByNaa

variable {p : Decoders φ}

/-- An element is appended, or the list stays as it is. -/
theorem appendParsed_eq (p : Decoders φ) (firstTlv : Bytes) (s : ProfileElementSequence φ) :
    (∃ files, appendParsed p firstTlv s = some ({ s with files := files }, none)) ∨
      ∃ files pe, appendParsed p firstTlv s = some ({ s with
        files := files
        objects := Function.update s.objects s.next pe
        next := s.next + 1
        peList := s.peList ++ [s.next] }, some ()) := by
  cases hpe : (p.fromDer firstTlv s).2 with
  | none => exact .inl ⟨(p.fromDer firstTlv s).1, by simp only [appendParsed, hpe]⟩
  | some pe => exact .inr ⟨(p.fromDer firstTlv s).1, pe, by simp only [appendParsed, hpe]⟩

theorem appendParsed_parsed (p : Decoders φ) (firstTlv : Bytes) :
    Relates Parsed (appendParsed p firstTlv) := by
  intro s
  obtain ⟨files, h⟩ | ⟨files, pe, h⟩ := appendParsed_eq p firstTlv s
  · exact ⟨_, _, h, fun _ _ => rfl, Nat.le_refl _, fun _ => .inl, id, Nat.le_refl _, rfl, rfl⟩
  · refine ⟨_, _, h, fun x hx => ?_, Nat.le_succ _, fun x hx => ?_, fun hlt x hx => ?_, ?_, rfl,
      rfl⟩
    · exact congrArg ProfileElement.type (Function.update_of_ne (Nat.ne_of_lt hx) ..)
    · exact (List.mem_append.1 hx).imp id fun hx => Nat.le_of_eq (List.mem_singleton.1 hx).symm
    · rcases List.mem_append.1 hx with hx | hx
      · exact Nat.lt_succ_of_lt (hlt x hx)
      · rw [List.mem_singleton.1 hx]
        exact Nat.lt_succ_self _
    · rw [List.length_append]
      exact Nat.le_add_right _ _

theorem parseElement_parsed (p : Decoders φ) (remainder : Bytes) :
    Relates Parsed (parseElement p remainder) := by
  refine Relates.bind Parsed.trans (relates_ofOption Parsed.refl _) fun x => ?_
  refine Relates.bind Parsed.trans (appendParsed_parsed p x.1) fun _ => ?_
  exact fun s => ⟨s, some x.2, rfl, Parsed.refl s⟩

theorem length_bertlvFirstSegment {binary firstTlv remainder : Bytes}
    (h : bertlvFirstSegment p binary = some (firstTlv, remainder)) :
    remainder.length < binary.length := by
  simp only [bertlvFirstSegment, Option.bind_eq_bind, Option.bind_eq_some_iff] at h
  obtain ⟨r, htag, ⟨n, r'⟩, hlen, h⟩ := h
  cases h
  have hlt := p.parseTag_lt _ _ htag
  have hlt' := p.parseLen_lt _ _ _ hlen
  rw [List.length_drop]
  dsimp only
  omega

variable {s s' : ProfileElementSequence φ}

/-- An element that parses takes octets, and is appended. -/
theorem parseElement_returns {remainder rest : Bytes}
    (h : (parseElement p remainder).Returns s rest s') :
    rest.length < remainder.length ∧ s'.peList = s.peList ++ [s.next] := by
  obtain ⟨⟨firstTlv, rest'⟩, t, hs, h⟩ := returns_bind.1 h
  obtain ⟨hsegment, rfl⟩ := returns_ofOption.1 hs
  obtain ⟨_, t, happend, h⟩ := returns_bind.1 h
  obtain ⟨rfl, rfl⟩ := returns_pure.1 h
  refine ⟨length_bertlvFirstSegment hsegment, ?_⟩
  obtain ⟨files, hnone⟩ | ⟨files, pe, hsome⟩ := appendParsed_eq p firstTlv s
  · cases hnone.symm.trans happend
  · cases hsome.symm.trans happend
    rfl

/-- One that does not leaves the list as it is. -/
theorem parseElement_fails {remainder : Bytes}
    (h : parseElement p remainder s = some (s', none)) : s'.peList = s.peList := by
  cases hsegment : bertlvFirstSegment p remainder with
  | none =>
    rw [parseElement, hsegment, bind_of_fails (t := s) rfl] at h
    cases h
    rfl
  | some x =>
    obtain ⟨firstTlv, rest⟩ := x
    have hrun : parseElement p remainder s =
        (appendParsed p firstTlv >>= fun _ => pure rest) s := by
      rw [parseElement, hsegment]
      rfl
    rw [hrun] at h
    obtain ⟨files, hnone⟩ | ⟨files, pe, hsome⟩ := appendParsed_eq p firstTlv s
    · rw [bind_of_fails hnone] at h
      cases h
      rfl
    · rw [bind_of_returns hsome] at h
      cases h

/-- **The loop** ends, whatever the bytes. -/
theorem parseLoop_parsed (p : Decoders φ) {fuel : ℕ} {remainder : Bytes}
    (hf : remainder.length < fuel) : Relates Parsed (parseLoop p fuel remainder) := by
  induction fuel generalizing remainder with
  | zero => exact absurd hf (Nat.not_lt_zero _)
  | succ fuel ih =>
    intro s
    rw [parseLoop]
    split
    · exact ⟨s, some (), rfl, Parsed.refl s⟩
    · obtain ⟨t, _ | rest, ht, hR⟩ := parseElement_parsed p remainder s
      · exact ⟨t, none, bind_of_fails ht, hR⟩
      · have hlt := (parseElement_returns ht).1
        obtain ⟨u, r, hu, hR'⟩ := @ih rest (by omega) t
        exact ⟨u, r, (bind_of_returns ht).trans hu, Parsed.trans s t u hR hR'⟩

/-- All elements parse. -/
def Parses (p : Decoders φ) (der : Bytes) (s : ProfileElementSequence φ) : Prop :=
  ∃ s', (parseElements p der).Returns { s with peList := [] } () s'

/-- The first element parses. -/
def FirstParses (p : Decoders φ) (der : Bytes) (s : ProfileElementSequence φ) : Prop :=
  ∃ rest s', (parseElement p der).Returns { s with peList := [] } rest s'

/-- An error at the first element leaves no element. -/
theorem peList_eq_nil_iff {der : Bytes}
    (h : parseElements p der { s with peList := [] } = some (s', none)) :
    s'.peList = [] ↔ ¬ FirstParses p der s := by
  rw [parseElements, parseLoop] at h
  split at h
  · cases h
  · obtain ⟨t, _ | rest, ht, -⟩ := parseElement_parsed p der { s with peList := [] }
    · rw [bind_of_fails ht] at h
      cases h
      refine iff_of_true (parseElement_fails ht) ?_
      rintro ⟨rest, u, hu⟩
      rw [Returns, ht] at hu
      cases hu
    · obtain ⟨hlt, hlist⟩ := parseElement_returns ht
      refine iff_of_false ?_ (not_not_intro ⟨rest, t, ht⟩)
      rw [bind_of_returns ht] at h
      obtain ⟨u, r, hu, hR⟩ := parseLoop_parsed p hlt t
      rw [h] at hu
      cases hu
      have hlen := hR.length
      rw [hlist, List.length_append, List.length_singleton] at hlen
      intro hnil
      rw [hnil, List.length_nil] at hlen
      omega

/-! ## Steps -/

/-- The condition on a call and the state before it. A call that changes the list meets it if no
application starts in the list that it changes; so does one that is refused. Bytes that do not parse
do no harm if the list is empty and the first element is the one that does not parse. -/
def Event.Meets (p : Decoders φ) (s : ProfileElementSequence φ) : Event → Prop
  | .create _ => True
  | .append _ => s.NoNaa
  | .insertAtIndex _ _ => s.NoNaa
  | .insertAfterPe peBefore _ => peBefore ∈ s.peList → s.NoNaa
  | .addSsd _ => (∃ pe ∈ s.peList, s.type pe = "securityDomain") → s.NoNaa
  | .removeNaasOfType naa => Accepts naa s → s.NoNaa
  | .parseDer der => (Parses p der s → s.NoNaa) ∧
    (¬ Parses p der s → s.peList = [] ∧ ¬ FirstParses p der s)

/-- The elements of the list exist. -/
def Exist (s : ProfileElementSequence φ) : Prop := ∀ pe ∈ s.peList, pe < s.next

/-- What a call comes to. -/
def Steps (p : Decoders φ) (s : ProfileElementSequence φ) (e : Event) : Prop :=
  ∃ s' r, e.run p s = some (s', r) ∧ Exist s' ∧ (s'.Consistent ↔ e.Meets p s)

theorem mem_listInsert {xs : List Ref} {idx : ℤ} {x y : Ref} (h : y ∈ listInsert xs idx x) :
    y = x ∨ y ∈ xs := by
  rw [listInsert, List.mem_append, List.mem_cons] at h
  rcases h with h | rfl | h
  · exact .inr (List.mem_of_mem_take h)
  · exact .inl rfl
  · exact .inr (List.mem_of_mem_drop h)

theorem create_steps (hI : Exist s) (h : s.Consistent) (pe : ProfileElement) :
    Steps p s (.create pe) := by
  refine ⟨_, _, rfl, fun x hx => Nat.lt_succ_of_lt (hI x hx), iff_of_true ?_ trivial⟩
  refine h.congr rfl (fun x hx => ?_) rfl rfl
  exact congrArg ProfileElement.type (Function.update_of_ne (Nat.ne_of_lt (hI x hx)) ..)

theorem insertAtIndex_steps (hI : Exist s) (h : s.Consistent) (idx : ℤ) {pe : Ref}
    (hpe : pe < s.next) : Steps p s (.insertAtIndex idx pe) := by
  refine ⟨_, _, rfl, fun x hx => ?_, h.insert_iff _⟩
  rcases mem_listInsert hx with rfl | hx
  · exact hpe
  · exact hI x hx

theorem append_steps (hI : Exist s) (h : s.Consistent) {pe : Ref} (hpe : pe < s.next) :
    Steps p s (.append pe) := by
  refine ⟨_, _, rfl, fun x hx => ?_, h.insert_iff _⟩
  rcases List.mem_append.1 hx with hx | hx
  · exact hI x hx
  · rw [List.mem_singleton.1 hx]
    exact hpe

theorem insertAfterPe_steps (hI : Exist s) (h : s.Consistent) (peBefore : Ref) {peNew : Ref}
    (hpe : peNew < s.next) : Steps p s (.insertAfterPe peBefore peNew) := by
  by_cases hmem : peBefore ∈ s.peList
  · have hidx : getIndexByPe s peBefore = some (s.peList.idxOf peBefore) := if_pos hmem
    obtain ⟨s', r, hrun, hI', hiff⟩ :=
      insertAtIndex_steps (p := p) hI h (s.peList.idxOf peBefore + 1) hpe
    refine ⟨s', r, ?_, hI', hiff.trans ⟨fun hno _ => hno, fun hcond => hcond hmem⟩⟩
    have hfetch : fetch (fun s => getIndexByPe s peBefore) s =
        some (s, some (s.peList.idxOf peBefore)) := returns_fetch.2 ⟨hidx, rfl⟩
    exact (bind_of_returns hfetch).trans hrun
  · have hidx : getIndexByPe s peBefore = none := if_neg hmem
    refine ⟨s, none, ?_, hI, iff_of_true h fun hmem' => absurd hmem' hmem⟩
    exact bind_of_fails (fetch_none hidx)

theorem mem_getIndexByType {petype : String} {i : ℕ} : i ∈ getIndexByType s petype ↔
    ∃ pe, s.peList[i]? = some pe ∧ s.type pe = petype := by
  rw [getIndexByType, List.mem_filter, List.mem_range, decide_eq_true_iff, Option.map_eq_some_iff]
  refine and_iff_right_of_imp ?_
  rintro ⟨pe, hpe, -⟩
  exact (List.getElem?_eq_some_iff.1 hpe).1

theorem addSsd_steps (hI : Exist s) (h : s.Consistent) {ssd : Ref} (hpe : ssd < s.next) :
    Steps p s (.addSsd ssd) := by
  cases hindex : getIndexByType s "securityDomain" with
  | nil =>
    have hhead : (getIndexByType s "securityDomain").head? = none := by rw [hindex, List.head?_nil]
    refine ⟨s, none, bind_of_fails (fetch_none hhead), hI, iff_of_true h ?_⟩
    rintro ⟨pe, hmem, htype⟩
    obtain ⟨i, hi⟩ := List.getElem?_of_mem hmem
    have := mem_getIndexByType.2 ⟨pe, hi, htype⟩
    rw [hindex] at this
    exact absurd this List.not_mem_nil
  | cons i rest =>
    have hmem : i ∈ getIndexByType s "securityDomain" := by
      rw [hindex]
      exact List.mem_cons_self
    obtain ⟨pe, hi, htype⟩ := mem_getIndexByType.1 hmem
    obtain ⟨s', r, hrun, hI', hiff⟩ := insertAtIndex_steps (p := p) hI h (i + 1) hpe
    have hhead : (getIndexByType s "securityDomain").head? = some i := by
      rw [hindex, List.head?_cons]
    have hfetch : fetch (fun s => (getIndexByType s "securityDomain").head?) s =
        some (s, some i) := returns_fetch.2 ⟨hhead, rfl⟩
    refine ⟨s', r, (bind_of_returns hfetch).trans hrun, hI', hiff.trans
      ⟨fun hno _ => hno, fun hcond => hcond ⟨pe, List.mem_of_getElem? hi, htype⟩⟩⟩

theorem removeNaasOfType_steps (hI : Exist s) (h : s.Consistent) (naa : Naa) :
    Steps p s (.removeNaasOfType naa) := by
  obtain ⟨t, _ | names, ht, hsame⟩ := prepareRemoval_same naa s
  · refine ⟨t, none, bind_of_fails ht, fun pe hpe => ?_, iff_of_true (hsame.consistent h) ?_⟩
    · rw [hsame.peList] at hpe
      rw [hsame.next]
      exact hI pe hpe
    · rintro ⟨names, u, hu⟩
      rw [Returns, ht] at hu
      cases hu
  · refine ⟨_, some (), (bind_of_returns ht).trans rfl, fun pe hpe => ?_, ?_⟩
    · have hmem : pe ∈ t.peList := mem_foldl_filter (List.mem_of_mem_filter hpe)
      rw [hsame.peList] at hmem
      exact Nat.lt_of_lt_of_eq (hI pe hmem) hsame.next.symm
    · refine (remove_iff (hsame.consistent h) naa names).trans (hsame.noNaa.trans ?_)
      exact ⟨fun hno _ => hno, fun hcond => hcond ⟨names, t, ht⟩⟩

/-- The dictionaries for a list are those for a list of other elements only if both are empty. -/
theorem parsed_iff (hI : Exist s) (h : s.Consistent)
    (hp : Parsed { s with peList := [] } s') :
    s'.Consistent ↔ s.peList = [] ∧ s'.peList = [] := by
  constructor
  · intro h'
    have hnew : s'.peList = [] := by
      rw [List.eq_nil_iff_forall_not_mem]
      intro pe hpe
      -- the element is in the dictionary, which is the one of the list before
      have hold := (h'.byType (s'.type pe)).symm.trans
        ((congrFun hp.peByType _).trans (h.byType (s'.type pe)))
      have hmem : pe ∈ s.peList.filter fun x => s.type x = s'.type pe := by
        rw [← unlessNil_inj hold]
        exact List.mem_filter.2 ⟨hpe, decide_eq_true rfl⟩
      have hlt := hI pe (List.mem_of_mem_filter hmem)
      rcases hp.new pe hpe with hnil | hle
      · exact absurd hnil List.not_mem_nil
      · exact absurd hlt (Nat.not_lt.2 hle)
    refine ⟨?_, hnew⟩
    rw [List.eq_nil_iff_forall_not_mem]
    intro pe hpe
    have hold := (h'.byType (s.type pe)).symm.trans
      ((congrFun hp.peByType _).trans (h.byType (s.type pe)))
    have hmem : pe ∈ s.peList.filter fun x => s.type x = s.type pe :=
      List.mem_filter.2 ⟨hpe, decide_eq_true rfl⟩
    rw [← unlessNil_inj hold, hnew] at hmem
    exact absurd hmem List.not_mem_nil
  · rintro ⟨hold, hnew⟩
    refine h.congr (hnew.trans hold.symm) (fun pe hpe => ?_) hp.peByType hp.pesByNaa
    rw [hold] at hpe
    exact absurd hpe List.not_mem_nil

theorem parseDer_steps (hI : Exist s) (h : s.Consistent) (der : Bytes) :
    Steps p s (.parseDer der) := by
  obtain ⟨t, r, ht, hparsed⟩ := parseLoop_parsed p (Nat.lt_succ_self der.length)
    { s with peList := [] }
  have hExist : Exist t := hparsed.lt fun pe hpe => absurd hpe List.not_mem_nil
  have hrun : Event.run p (.parseDer der) s =
      (parseElements p der >>= fun _ => alter ProfileElementSequence.processPelist)
        { s with peList := [] } := rfl
  cases r with
  | none =>
    have hnot : ¬ Parses p der s := by
      rintro ⟨u, hu⟩
      cases ht.symm.trans hu
    refine ⟨t, none, hrun.trans (bind_of_fails ht), hExist, ?_⟩
    rw [parsed_iff hI h hparsed, peList_eq_nil_iff ht]
    exact ⟨fun hcond => ⟨fun hp => absurd hp hnot, fun _ => hcond⟩, fun hcond => hcond.2 hnot⟩
  | some u =>
    have hparses : Parses p der s := ⟨t, ht⟩
    refine ⟨t.processPelist, some (), hrun.trans (bind_of_returns ht), hExist, ?_⟩
    refine (processPelist_consistent_iff (hparsed.pesByNaa.trans h.pesByNaa_eq)).trans
      (noNaa_iff.symm.trans ?_)
    exact ⟨fun hno => ⟨fun _ => hno, fun hnot => absurd hparses hnot⟩, fun hcond => hcond.1 hparses⟩

/-- **One call.** -/
theorem step_steps (hI : Exist s) (h : s.Consistent) {e : Event}
    (hrefs : ∀ pe ∈ e.refs, pe < s.next) : Steps p s e := by
  cases e with
  | create pe => exact create_steps hI h pe
  | append pe => exact append_steps hI h (hrefs pe (by simp [Event.refs]))
  | insertAtIndex idx pe => exact insertAtIndex_steps hI h idx (hrefs pe (by simp [Event.refs]))
  | insertAfterPe peBefore peNew =>
    exact insertAfterPe_steps hI h peBefore (hrefs peNew (by simp [Event.refs]))
  | addSsd ssd => exact addSsd_steps hI h (hrefs ssd (by simp [Event.refs]))
  | removeNaasOfType naa => exact removeNaasOfType_steps hI h naa
  | parseDer der => exact parseDer_steps hI h der

theorem start_consistent (files : φ) : (start files).Consistent :=
  ⟨fun _ => rfl, [], [], ⟨rfl, by simp, by simp⟩, fun _ => rfl⟩

/-- **The indexes of the elements.** In a run from a new sequence, both dictionaries are those of
the list after every call if and only if every call meets its condition. -/
theorem index_iff (p : Decoders φ) (files : φ) (events : List Event) :
    (∀ t ∈ Run.trace (step p) (start files) events, t.post.Consistent) ↔
      ∀ t ∈ Run.trace (step p) (start files) events, t.event.Meets p t.pre := by
  refine Run.forall_trace_iff (I := Exist) (P := Consistent)
    (Q := fun t => t.event.Meets p t.pre) (fun s e s' hI h hs => ?_)
    (fun pe hpe => absurd hpe List.not_mem_nil) (start_consistent files) events
  rw [step] at hs
  split at hs
  · rename_i hrefs
    obtain ⟨t, r, hrun, hI', hiff⟩ := step_steps (p := p) hI h hrefs
    rw [hrun] at hs
    cases hs
    exact ⟨hI', hiff⟩
  · cases hs

/-- An element of a type. -/
def sampleElement (type : String) : ProfileElement :=
  ⟨type, some ⟨true, none⟩, none, none, none, fun _ => none, none⟩

/-- A library that reads a tag and a length of one octet each, and takes every element for an
application. -/
def sampleDecoders : Decoders Unit where
  parseTag bs := match bs with
    | [] => none
    | _ :: r => some r
  parseLen bs := match bs with
    | [] => none
    | n :: r => some (n.toNat, r)
  fromDer _ s := (s.files, some (sampleElement "usim"))
  parseTag_lt := by
    rintro (_ | ⟨b, bs⟩) r h
    · cases h
    · cases h
      exact Nat.lt_succ_self _
  parseLen_lt := by
    rintro (_ | ⟨b, bs⟩) n r h
    · cases h
    · cases h
      exact Nat.lt_succ_self _

/-- The file system of a card and an application for it: the file system is there twice. -/
def sampleEvents : List Event :=
  [.create (sampleElement "mf"), .append 0, .create (sampleElement "usim"), .append 1]

theorem index_accumulates :
    ¬ ∀ t ∈ Run.trace (step sampleDecoders) (start ()) sampleEvents, t.post.Consistent := by
  intro h
  have hlast : ((Run.trace (step sampleDecoders) (start ()) sampleEvents).getLast?.map
      fun t => (t.post.pesByNaa "mf", unlessNil (t.post.runsOf "mf"))) =
      some (some [[0], [0]], some [[0]]) := by decide +kernel
  obtain ⟨t, ht, heq⟩ := Option.map_eq_some_iff.1 hlast
  obtain ⟨htwice, honce⟩ := Prod.mk.inj heq
  have hmf := (consistent_iff.1 (h t (List.mem_of_getLast? ht))).2 "mf"
  rw [htwice, honce] at hmf
  exact absurd hmf (by decide)

end VirtualRsp.Smdp.ProfileElements
