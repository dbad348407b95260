import Stencil.Program.Blocks
import Stencil.Proofs.Markup.Cuts
import Stencil.Proofs.Markup.Headers
set_option autoImplicit false

namespace Stencil

open Text

namespace Expr

theorem trim_ne_nil {text : String} {x : Expr} (h : parse text = .ok x) :
    trim text.toList ≠ [] := by
  intro hn
  have hp := parse_trim h
  rw [hn] at hp
  simp [parse, lex, lexFrom, parseLexemes, State.run, State.finish, State.start] at hp

theorem exists_solid {text : String} {x : Expr} (h : parse text = .ok x) :
    ∃ bs t es, text.toList = bs ++ (t ++ es) ∧ (∀ c ∈ bs, isLexBlank c = true) ∧ Solid t ∧
      (∀ c ∈ es, isBlank c = true) ∧ parse (String.ofList t) = .ok x := by
  refine ⟨leadingBlanks text.toList, trim text.toList, trailingBlanks (trimStart text.toList), ?_,
    isLexBlank_of_mem_leadingBlanks (readable_of_parse h), solid_trim (trim_ne_nil h), ?_,
    parse_trim h⟩
  · rw [trim, trimEnd_append_trailingBlanks, leadingBlanks_append_trimStart]
  · intro c hc
    rw [trailingBlanks, List.mem_reverse] at hc
    exact List.mem_takeWhile_imp hc

theorem head?_ne_tick {cs : List Char} (h : Readable (tokens cs)) : cs.head? ≠ some '\x60' := by
  cases cs with
  | nil => simp
  | cons c cs =>
    rintro ⟨⟩
    rw [tokens_token (by decide), munch_tick] at h
    exact h _ List.mem_cons_self

theorem head?_dropWhile_ne_tick {cs : List Char} (h : Readable (tokens cs)) (rest : List Char) :
    ((cs ++ '\x7d' :: rest).dropWhile isSlotBlank).head? ≠ some '\x60' := by
  induction cs with
  | nil => simp [isSlotBlank, isLexBlank]
  | cons c cs ih =>
    cases hc : isSlotBlank c with
    | true =>
      rw [tokens_blank (isLexBlank_of_readable h (isSlotBlank_isBlank hc))] at h
      rw [List.cons_append, List.dropWhile_cons_of_pos hc]
      exact ih h
    | false =>
      rw [List.cons_append, List.dropWhile_cons_of_neg (by simp [hc]),
        List.head?_cons, ← List.head?_cons (l := cs)]
      exact head?_ne_tick h

end Expr

namespace Markup

/-- A slot with a bare payload is read up to the brace behind it. -/
theorem read_bare {cs : List Char} {m : Marked} (hm : marker cs = .ok m) {bs t es rest : List Char}
    (hrest : m.rest = bs ++ (t ++ (es ++ '\x7d' :: rest)))
    (hbs : ∀ c ∈ bs, isSlotBlank c = true) (ht : Solid t) (hes : ∀ c ∈ es, isBlank c = true)
    (htick : t.head? ≠ some '\x60') (hskip : Skips t 0 0) :
    Slot.read cs = .ok ⟨m.directive, m.text ++ bs, t, es ++ ['\x7d'], rest⟩ := by
  have hstop : ∀ c ∈ (t ++ (es ++ '\x7d' :: rest)).head?, isSlotBlank c = false :=
    fun c hc => isSlotBlank_eq_false (ht.head_append _ c hc)
  have hbody : bareBody none 0 (t ++ (es ++ '\x7d' :: rest)) = some (t ++ es, rest) := by
    have hall := hskip.append (skips_of_plain (fun c hc => isPlain_of_isBlank (hes c hc)) 0)
    have := hall ('\x7d' :: rest)
    simpa [bareBody] using this
  have hread : Slot.readBare m.directive (m.text ++ bs) (t ++ (es ++ '\x7d' :: rest)) =
      .ok ⟨m.directive, m.text ++ bs, t, es ++ ['\x7d'], rest⟩ := by
    have hlead := ht.leadingBlanks_eq (List.forall_mem_nil _) es
    have htrim := ht.trim_eq (List.forall_mem_nil _) hes
    have hstart := ht.trimStart_eq (List.forall_mem_nil _) es
    rw [List.nil_append] at hlead htrim hstart
    simp [Slot.readBare, hbody, hlead, htrim, hstart, ht.trailingBlanks_eq hes]
  rw [Slot.read, hm]
  dsimp only
  rw [hrest, takeWhile_exact hbs hstop, dropWhile_exact hbs hstop]
  split
  · next more he =>
    cases t with
    | nil => obtain ⟨c, hc, -⟩ := ht.head; cases hc
    | cons c t => cases he; exact absurd rfl htick
  · exact hread

theorem marker_word (d : Directive) (more : List Char) :
    marker (d.name.toList ++ ' ' :: more) = .ok ⟨d, d.name.toList, ' ' :: more⟩ := by
  cases d <;> rfl

def isMarker (name : String) : Bool :=
  let word := match name.toList with
    | '_' :: word => word
    | word => word
  word = [] || (Directive.ofName? (String.ofList word)).isSome

theorem eq_name_of_ofName? {name : String} {d : Directive} (h : Directive.ofName? name = some d) :
    name = d.name := by
  have hf := List.find?_some h
  simp only [decide_eq_true_eq] at hf
  exact hf.symm

theorem isMarker_underscore {word : List Char}
    (h : isMarker (String.ofList ('_' :: word)) = false) :
    word ≠ [] ∧ Directive.ofName? (String.ofList word) = none := by
  simpa [isMarker] using h

theorem name_word (d : Directive) :
    ∃ c cs, d.name.toList = c :: cs ∧ Expr.isNameStart c = true ∧
      Expr.wordToken (c :: cs) = .ident d.name ∧ isMarker d.name = true := by
  cases d <;> exact ⟨_, _, rfl, by decide, rfl, by decide⟩

theorem isNamePart_brace (rest : List Char) :
    ∀ c ∈ ('\x7d' :: rest).head?, Expr.isNamePart c = false := by
  rintro c ⟨⟩
  decide

section

variable {bs us : List Char} {c : Char}

theorem plainMarker_alone (hno : ∀ name, (Expr.tokens (c :: us)).head? = some (.ident name) →
    isMarker name = false) (rest : List Char) :
    plainMarker bs (c :: us ++ '\x7d' :: rest) = ⟨.print, bs, c :: us ++ '\x7d' :: rest⟩ := by
  unfold plainMarker
  dsimp only
  rw [takeWhile_append_stop (isNamePart_brace rest)]
  cases hd : Directive.ofName? (String.ofList ((c :: us).takeWhile Expr.isNamePart)) with
  | none => rfl
  | some d =>
    -- the whole word would be the first token, and a marker
    obtain ⟨e, es, hname, hstart, hident, hmark⟩ := name_word d
    have hword : (c :: us).takeWhile Expr.isNamePart = e :: es := by
      rw [← hname, ← eq_name_of_ofName? hd, String.toList_ofList]
    obtain ⟨rfl, hes⟩ : c = e ∧ us.takeWhile Expr.isNamePart = es := by
      rw [List.takeWhile_cons] at hword
      split at hword
      · exact List.cons.inj hword
      · cases hword
    rw [Expr.tokens_word hstart, hes, hident] at hno
    simp [hno _ rfl] at hmark

theorem underscoreMarker_alone (hr : Expr.Readable (Expr.tokens ('_' :: us)))
    (hno : ∀ name, (Expr.tokens ('_' :: us)).head? = some (.ident name) → isMarker name = false)
    (rest : List Char) :
    underscoreMarker bs (us ++ '\x7d' :: rest) =
      .ok ⟨.print, bs, '_' :: us ++ '\x7d' :: rest⟩ := by
  have hstop := isNamePart_brace rest
  rw [Expr.tokens_word (by decide)] at hr hno
  obtain ⟨hne, hnone⟩ := isMarker_underscore (hno _ rfl)
  have htick := Expr.head?_dropWhile_ne_tick (fun text ht => hr text (List.mem_cons_of_mem _ ht)) rest
  unfold underscoreMarker
  dsimp only
  rw [takeWhile_append_stop hstop, dropWhile_append_stop hstop, if_neg hne, hnone]
  dsimp only
  rw [if_neg htick, List.cons_append]

/-- An expression alone in its slot is not taken for a marker. -/
theorem marker_alone (hbs : ∀ c ∈ bs, isSlotBlank c = true) (hc : isBlank c = false)
    (hr : Expr.Readable (Expr.tokens (c :: us)))
    (hno : ∀ name, (Expr.tokens (c :: us)).head? = some (.ident name) → isMarker name = false)
    (rest : List Char) :
    marker (bs ++ (c :: us ++ '\x7d' :: rest)) =
      .ok ⟨.print, bs, c :: us ++ '\x7d' :: rest⟩ := by
  have hstop : ∀ d ∈ (c :: us ++ '\x7d' :: rest).head?, isSlotBlank d = false := by
    rintro d ⟨⟩
    exact isSlotBlank_eq_false hc
  unfold marker
  dsimp only
  rw [takeWhile_exact hbs hstop, dropWhile_exact hbs hstop]
  split
  · next more hm =>
    cases hm
    exact underscoreMarker_alone hr hno rest
  · rw [plainMarker_alone hno]

end

theorem piecesFrom_opener {cs : List Char} {s : Slot} {t : Token} (hs : Slot.read cs = .ok s)
    (ht : s.token 0 = .ok t) :
    piecesFrom 0 0 [] (opener ++ cs) =
      (piecesFrom s.length s.length [] s.rest).map (⟨t, 0, s.length⟩ :: ·) := by
  have hopen : splitOpener (opener ++ cs) = some ([], cs) := rfl
  rw [piecesFrom_of_slot hopen (by decide) hs ht]
  simp [kept, literalPiece]

section

variable {bs t es : List Char}

theorem read_word (d : Directive) (hbs : ∀ c ∈ bs, isSlotBlank c = true) (ht : Solid t)
    (hes : ∀ c ∈ es, isBlank c = true) (htick : t.head? ≠ some '\x60') (hskip : Skips t 0 0)
    (rest : List Char) :
    Slot.read (d.name.toList ++ [' '] ++ (bs ++ (t ++ (es ++ '\x7d' :: rest)))) =
      .ok ⟨d, d.name.toList ++ [' '] ++ bs, t, es ++ ['\x7d'], rest⟩ := by
  have hblank : ∀ c ∈ [' '] ++ bs, isSlotBlank c = true :=
    List.forall_mem_cons.2 ⟨by decide, hbs⟩
  have hm := marker_word d (bs ++ (t ++ (es ++ '\x7d' :: rest)))
  rw [List.append_assoc, List.append_assoc]
  exact read_bare hm rfl hblank ht hes htick hskip

theorem read_headed (d : Directive) {header : List Char} (hh : Solid header)
    (hplain : ∀ c ∈ header, isPlain c = true) (hhead : header.head? ≠ some '\x60')
    (hbs : ∀ c ∈ bs, isBlank c = true) (ht : Solid t) (hes : ∀ c ∈ es, isBlank c = true)
    (hskip : Skips t 0 0) (rest : List Char) :
    Slot.read (d.name.toList ++ [' '] ++ (header ++ ' ' :: (bs ++ (t ++ (es ++ '\x7d' :: rest))))) =
      .ok ⟨d, d.name.toList ++ [' '], header ++ ' ' :: (bs ++ t), es ++ ['\x7d'], rest⟩ := by
  have hgap : ∀ c ∈ ' ' :: bs, isPlain c = true :=
    List.forall_mem_cons.2 ⟨by decide, fun c hc => isPlain_of_isBlank (hbs c hc)⟩
  have hwhole : Skips (header ++ (' ' :: bs ++ t)) 0 0 :=
    (skips_of_plain hplain 0).append ((skips_of_plain hgap 0).append hskip)
  have hfirst : (header ++ (' ' :: bs ++ t)).head? ≠ some '\x60' := by
    obtain ⟨c, hc, -⟩ := hh.head
    rw [List.head?_append, hc, Option.some_or, ← hc]
    exact hhead
  have hread := read_word d (List.forall_mem_nil _) (hh.append ht (' ' :: bs)) hes hfirst hwhole
    rest
  simpa using hread

end

inductive Usage where
  | alone
  | print
  | ifStart
  | elseIf
  | forStart (index value : String)
  | embed (path : String)

namespace Usage

def lead : Usage → String
  | .alone => ""
  | .print => "print "
  | .ifStart => "if "
  | .elseIf => "elseif "
  | .forStart index value => "for " ++ index ++ ", " ++ value ++ " in "
  | .embed path => "include " ++ path ++ " "

def slot (u : Usage) (e : String) : String := "$\x7b" ++ u.lead ++ e ++ "\x7d"

def token (p : Payload) : Usage → Token
  | .alone | .print => .print p
  | .ifStart => .ifStart p
  | .elseIf => .elseIf p
  | .forStart index value => .forStart index value p
  | .embed path => .embed path (some p)

/-- The expression without the blanks around it, at its place in a source that begins with the slot. -/
def payload (u : Usage) (e : String) : Payload :=
  ⟨String.ofList (trim e.toList),
    byteLength opener + byteLength u.lead.toList + byteLength (leadingBlanks e.toList)⟩

/-- Alone in its slot an expression must not begin with a name that is a marker. -/
def Admits (e : String) : Usage → Prop
  | .alone => ∀ name, (Expr.tokens e.toList).head? = some (.ident name) → isMarker name = false
  | .forStart index value => isName index = true ∧ isName value = true
  | .embed path => isPath path = true
  | _ => True

end Usage

theorem length_of_read {xs rest : List Char} {s : Slot} (h : Slot.read (xs ++ rest) = .ok s)
    (hr : s.rest = rest) : s.length = byteLength opener + byteLength xs := by
  have happ := Slot.read_append h
  rw [hr] at happ
  rw [Slot.length, List.append_cancel_right happ]

theorem offset_append (xs ys : List Char) :
    byteLength opener + byteLength xs + byteLength ys = 0 + byteLength opener + byteLength (xs ++ ys) := by
  simp [Nat.add_assoc]

theorem read_usage {e : String} {x : Expr} (he : Expr.parse e = .ok x) {u : Usage}
    (hu : u.Admits e) (rest : List Char) :
    ∃ s, Slot.read (u.lead.toList ++ (e.toList ++ '\x7d' :: rest)) = .ok s ∧
      s.token 0 = .ok (u.token (u.payload e)) ∧ s.rest = rest := by
  obtain ⟨bs, t, es, hcs, hbs, ht, hes, hp⟩ := Expr.exists_solid he
  have hslot : ∀ c ∈ bs, isSlotBlank c = true := fun c hc => isLexBlank_isSlotBlank (hbs c hc)
  have hblank : ∀ c ∈ bs, isBlank c = true := fun c hc => isSlotBlank_isBlank (hslot c hc)
  have hskip : Skips t 0 0 := by simpa using skips_of_parse hp 0
  have htick : t.head? ≠ some '\x60' := by
    simpa using Expr.head?_ne_tick (Expr.readable_of_parse hp)
  have hpayload : u.payload e = ⟨String.ofList t,
      byteLength opener + byteLength u.lead.toList + byteLength bs⟩ := by
    rw [Usage.payload, hcs, ht.trim_eq hblank hes, ht.leadingBlanks_eq hblank]
  rw [hcs, hpayload, List.append_assoc, List.append_assoc]
  cases u with
  | alone =>
    obtain ⟨c, hc, hcb⟩ := ht.head
    obtain ⟨us, rfl⟩ := List.head?_eq_some_iff.1 hc
    have htokens : Expr.tokens e.toList = Expr.tokens (c :: (us ++ es)) := by
      rw [hcs, Expr.tokens_blanks_append hbs, List.cons_append]
    have hr := Expr.readable_of_parse he
    have hno := hu
    rw [Usage.Admits, htokens] at hno
    rw [htokens] at hr
    have hm := marker_alone hslot hcb hr hno rest
    rw [← List.cons_append, List.append_assoc] at hm
    exact ⟨_, read_bare hm rfl (List.forall_mem_nil _) ht hes htick hskip, by
      rw [offset_append, List.append_nil]; rfl, rfl⟩
  | print =>
    exact ⟨_, read_word .print hslot ht hes htick hskip rest,
      by rw [offset_append Usage.print.lead.toList bs]; rfl, rfl⟩
  | ifStart =>
    exact ⟨_, read_word .ifStart hslot ht hes htick hskip rest,
      by rw [offset_append Usage.ifStart.lead.toList bs]; rfl, rfl⟩
  | elseIf =>
    exact ⟨_, read_word .elseIf hslot ht hes htick hskip rest,
      by rw [offset_append Usage.elseIf.lead.toList bs]; rfl, rfl⟩
  | forStart index value =>
    have hlead : (Usage.forStart index value).lead.toList =
        Directive.forStart.name.toList ++ [' '] ++ (loopHeader index value ++ [' ']) := by
      simp [Usage.lead, loopHeader, Directive.name]
    have hread := read_headed .forStart (solid_loopHeader hu.1) (isPlain_of_mem_loopHeader hu.1 hu.2)
      (head?_loopHeader hu.1 value) hblank ht hes hskip rest
    have hfor := forToken?_header hu.1 hu.2 hblank ht
      (0 + byteLength opener + byteLength (Directive.forStart.name.toList ++ [' ']))
    rw [hlead]
    refine ⟨_, by simpa using hread, ?_, rfl⟩
    simp only [Slot.token, Slot.payloadAt, hfor, Usage.token]
    simp [Nat.add_assoc]
  | embed path =>
    have hlead : (Usage.embed path).lead.toList =
        Directive.embed.name.toList ++ [' '] ++ (path.toList ++ [' ']) := by
      simp [Usage.lead, Directive.name]
    have hread := read_headed .embed (solid_of_isPath hu) (fun c hc => (mem_of_isPath hu hc).2.1)
      (fun hh => (mem_of_isPath hu (List.mem_of_mem_head? hh)).2.2 rfl) hblank ht hes hskip rest
    have hembed := embedToken?_header hu hblank ht
      (0 + byteLength opener + byteLength (Directive.embed.name.toList ++ [' ']))
    rw [hlead]
    refine ⟨_, by simpa using hread, ?_, rfl⟩
    simp only [Slot.token, Slot.payloadAt, hembed, Usage.token]
    simp [Nat.add_assoc]

/-- A source that begins with an expression in a slot begins with its token, which ends at the brace
behind the expression, whatever comes then. -/
theorem bare_slot {e : String} {x : Expr} (he : Expr.parse e = .ok x) {u : Usage}
    (hu : u.Admits e) :
    (Expression.ofPayload (u.payload e)).parsed = .ok x ∧
      ∀ rest : String,
        (∃ s, Slot.read ((u.slot e ++ rest).toList.drop opener.length) = .ok s ∧
          s.token 0 = .ok (u.token (u.payload e)) ∧
          s.length = byteLength (u.slot e).toList ∧ s.rest = rest.toList) ∧
        pieces (u.slot e ++ rest) =
          (piecesFrom (byteLength (u.slot e).toList) (byteLength (u.slot e).toList) []
            rest.toList).map (⟨u.token (u.payload e), 0, byteLength (u.slot e).toList⟩ :: ·) := by
  refine ⟨?_, fun rest => ?_⟩
  · rw [Expression.ofPayload, Expression.compile, Usage.payload, Expr.parse_trim he]
    rfl
  · obtain ⟨s, hs, ht, hr⟩ := read_usage he hu rest.toList
    have hsource : (u.slot e ++ rest).toList =
        opener ++ (u.lead.toList ++ (e.toList ++ '\x7d' :: rest.toList)) := by
      simp [Usage.slot, opener]
    have hlength : s.length = byteLength (u.slot e).toList := by
      have hread : Slot.read (u.lead.toList ++ (e.toList ++ ['\x7d']) ++ rest.toList) = .ok s := by
        simpa using hs
      rw [length_of_read hread hr, ← byteLength_append]
      simp [Usage.slot, opener]
    have hpieces := piecesFrom_opener hs ht
    rw [hlength, hr, ← hsource] at hpieces
    exact ⟨⟨s, by rw [hsource, List.drop_left]; exact hs, ht, hlength, hr⟩, hpieces⟩

theorem quoted_brace_slot :
    Expr.parse "item['\x7d']" = .ok (.index (.ident "item") (.literal (.string "\x7d"))) ∧
      Usage.alone.Admits "item['\x7d']" ∧
      (Expression.ofPayload ⟨"item['\x7d']", 2⟩).parsed =
        .ok (.index (.ident "item") (.literal (.string "\x7d"))) ∧
      ∀ rest : String, pieces ("$\x7bitem['\x7d']\x7d" ++ rest) =
        (piecesFrom 12 12 [] rest.toList).map (⟨.print ⟨"item['\x7d']", 2⟩, 0, 12⟩ :: ·) := by
  have hlex : Expr.lex "item['\x7d']" = [⟨.ident "item", 0, 4⟩, ⟨.symbol .bracketOpen, 4, 5⟩,
      ⟨.string "\x7d", 5, 8⟩, ⟨.symbol .bracketClose, 8, 9⟩] := by decide +kernel
  have hparse : Expr.parse "item['\x7d']" =
      .ok (.index (.ident "item") (.literal (.string "\x7d"))) := by
    rw [Expr.parse, hlex]
    rfl
  have hadmits : Usage.alone.Admits "item['\x7d']" := by
    have hfirst : (Expr.tokens "item['\x7d']".toList).head? = some (.ident "item") := by
      decide +kernel
    intro name hname
    rw [hfirst] at hname
    cases hname
    decide
  have h := bare_slot hparse hadmits
  have hp : Usage.alone.payload "item['\x7d']" = ⟨"item['\x7d']", 2⟩ := by
    decide +kernel
  have hs : Usage.alone.slot "item['\x7d']" = "$\x7bitem['\x7d']\x7d" := by decide
  rw [hp, hs] at h
  exact ⟨hparse, hadmits, h.1, fun rest => (h.2 rest).2⟩

end Markup

end Stencil
