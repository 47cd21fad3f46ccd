import ElmTypes.Proofs.Grammar.Completeness
import ElmTypes.Proofs.Source.Parts

namespace ElmTypes

/-- The grammar; all spans in the phrases it generates are empty. -/
inductive Generates : List TokenKind → Phrase → Prop where
  | function {ks ls : List TokenKind} {a b : TypeExpr} (ha : Generates ks (.application a))
      (hb : Generates ls (.type b)) :
      Generates (ks ++ .symbol .arrow :: ls) (.type (.function a b .empty))
  | ofApplication {ks : List TokenKind} {a : TypeExpr} (ha : Generates ks (.application a)) :
      Generates ks (.type a)
  | applied {k : TokenKind} {ks : List TokenKind} {name : String} {as : List TypeExpr}
      (hk : k.capitalisedName? = some name) (has : Generates ks (.arguments as)) :
      Generates (k :: ks) (.application (.named (.ofWord name .empty) as .empty))
  | ofAtom {ks : List TokenKind} {a : TypeExpr} (ha : Generates ks (.atom a)) :
      Generates ks (.application a)
  | typeVariable {k : TokenKind} {name : String} (hk : k.lowercaseName? = some name) :
      Generates [k] (.atom (.variable name .empty))
  | named {k : TokenKind} {name : String} (hk : k.capitalisedName? = some name) :
      Generates [k] (.atom (.named (.ofWord name .empty) [] .empty))
  | unit : Generates [.opening .round, .closing .round] (.atom (.unit .empty))
  | parenthesized {ks : List TokenKind} {a : TypeExpr} (ha : Generates ks (.type a)) :
      Generates (.opening .round :: (ks ++ [.closing .round])) (.atom a)
  | tuple {ks ls : List TokenKind} {a b : TypeExpr} {bs : List TypeExpr}
      (ha : Generates ks (.type a)) (hb : Generates ls (.elements (b :: bs))) :
      Generates (.opening .round :: (ks ++ (ls ++ [.closing .round])))
        (.atom (.tuple (a :: b :: bs) .empty))
  | emptyRecord : Generates [.opening .brace, .closing .brace] (.atom (.record [] .empty))
  | record {ks ls : List TokenKind} {f : RecordField TypeExpr} {fs : List (RecordField TypeExpr)}
      (hf : Generates ks (.field f)) (hfs : Generates ls (.fields fs)) :
      Generates (.opening .brace :: (ks ++ (ls ++ [.closing .brace])))
        (.atom (.record (f :: fs) .empty))
  | extensible {k : TokenKind} {ks ls : List TokenKind} {base : String} {f : RecordField TypeExpr}
      {fs : List (RecordField TypeExpr)} (hk : k.lowercaseName? = some base)
      (hf : Generates ks (.field f)) (hfs : Generates ls (.fields fs)) :
      Generates (.opening .brace :: k :: .symbol .bar :: (ks ++ (ls ++ [.closing .brace])))
        (.atom (.extensible base (f :: fs) .empty))
  | noArguments : Generates [] (.arguments [])
  | argument {ks ls : List TokenKind} {a : TypeExpr} {as : List TypeExpr}
      (ha : Generates ks (.atom a)) (has : Generates ls (.arguments as)) :
      Generates (ks ++ ls) (.arguments (a :: as))
  | noElements : Generates [] (.elements [])
  | element {ks ls : List TokenKind} {a : TypeExpr} {as : List TypeExpr}
      (ha : Generates ks (.type a)) (has : Generates ls (.elements as)) :
      Generates (.symbol .comma :: (ks ++ ls)) (.elements (a :: as))
  | field {k : TokenKind} {ks : List TokenKind} {name : String} {a : TypeExpr}
      (hk : k.lowercaseName? = some name) (ha : Generates ks (.type a)) :
      Generates (k :: .symbol .colon :: ks) (.field ⟨name, a, .empty⟩)
  | noFields : Generates [] (.fields [])
  | fields {ks ls : List TokenKind} {f : RecordField TypeExpr} {fs : List (RecordField TypeExpr)}
      (hf : Generates ks (.field f)) (hfs : Generates ls (.fields fs)) :
      Generates (.symbol .comma :: (ks ++ ls)) (.fields (f :: fs))

namespace Phrase

open TypeExpr (eraseField)

def erase : Phrase → Phrase
  | .type a => .type a.erase
  | .application a => .application a.erase
  | .atom a => .atom a.erase
  | .arguments as => .arguments (as.map TypeExpr.erase)
  | .elements as => .elements (as.map TypeExpr.erase)
  | .field f => .field (eraseField f)
  | .fields fs => .fields (fs.map eraseField)

def DerivedFrom (ts : List Token) : Phrase → Prop
  | .type a => ∃ a', a'.erase = a ∧ Derives ts (.type a')
  | .application a => ∃ a', a'.erase = a ∧ Derives ts (.application a')
  | .atom a => ∃ a', a'.erase = a ∧ Derives ts (.atom a')
  | .arguments as => ∃ as', as'.map TypeExpr.erase = as ∧ Derives ts (.arguments as')
  | .elements as => ∃ as', as'.map TypeExpr.erase = as ∧ Derives ts (.elements as')
  | .field f => ∃ f', eraseField f' = f ∧ Derives ts (.field f')
  | .fields fs => ∃ fs', fs'.map eraseField = fs ∧ Derives ts (.fields fs')

end Phrase

theorem TypeName.ofWord_span (word : String) (s s' : Span) :
    { TypeName.ofWord word s with span := s' } = TypeName.ofWord word s' := by
  unfold TypeName.ofWord
  split <;> rfl

namespace Derives

open TypeExpr

theorem generates {ts : List Token} {p : Phrase} (h : Derives ts p) :
    Generates (ts.map Token.kind) p.erase := by
  induction h with
  | function ha ht hb iha ihb =>
      rw [List.map_append, List.map_cons, ht]
      exact .function iha ihb
  | ofApplication ha ih => exact .ofApplication ih
  | applied ht has ih =>
      have happlied := Generates.applied ht ih
      simpa [Phrase.erase, TypeName.ofWord_span] using happlied
  | ofAtom ha ih => exact .ofAtom ih
  | typeVariable ht => exact .typeVariable ht
  | named ht => simpa [Phrase.erase, TypeName.ofWord_span] using Generates.named ht
  | unit hl hr =>
      rw [List.map_cons, List.map_singleton, hl, hr]
      exact .unit
  | parenthesized hl ha hr ih =>
      have hgrouped := Generates.parenthesized ih
      simpa [Phrase.erase, erase_withSpan, hl, hr] using hgrouped
  | tuple hl ha hb hr iha ihb =>
      have htuple := Generates.tuple iha ihb
      simpa [Phrase.erase, hl, hr] using htuple
  | emptyRecord hl hr =>
      rw [List.map_cons, List.map_singleton, hl, hr]
      exact .emptyRecord
  | record hl hf hfs hr ihf ihfs =>
      have hrecord := Generates.record ihf ihfs
      simpa [Phrase.erase, hl, hr] using hrecord
  | extensible hl hn ht hf hfs hr ihf ihfs =>
      have hrecord := Generates.extensible hn ihf ihfs
      simpa [Phrase.erase, hl, ht, hr] using hrecord
  | noArguments => exact .noArguments
  | argument ha has iha ihas =>
      rw [List.map_append]
      exact .argument iha ihas
  | noElements => exact .noElements
  | element ht ha has iha ihas =>
      rw [List.map_cons, List.map_append, ht]
      exact .element iha ihas
  | field hn ht ha ih =>
      rw [List.map_cons, List.map_cons, ht]
      exact .field hn ih
  | noFields => exact .noFields
  | fields ht hf hfs ihf ihfs =>
      rw [List.map_cons, List.map_append, ht]
      exact .fields ihf ihfs

end Derives

namespace Phrase

open TypeExpr (erase_function erase_named erase_tuple erase_record erase_extensible erase_unit
  erase_withSpan erase_variable eraseField)

/-- Whatever tokens have these kinds make up the phrase but for its spans. -/
def MadeUpBy (p : Phrase) (ks : List TokenKind) : Prop :=
  ∀ ts : List Token, ts.map Token.kind = ks → p.DerivedFrom ts

variable {k : TokenKind} {ks ls : List TokenKind} {a b : TypeExpr} {as : List TypeExpr}
  {f : RecordField TypeExpr} {fs : List (RecordField TypeExpr)} {name : String}

namespace MadeUpBy

theorem function (ha : (application a).MadeUpBy ks) (hb : (type b).MadeUpBy ls) :
    (type (.function a b .empty)).MadeUpBy (ks ++ .symbol .arrow :: ls) := by
  intro ts hts
  obtain ⟨us, vs, rfl, hus, hvs⟩ := List.map_eq_append_iff.1 hts
  obtain ⟨t, vs, rfl, ht, hvs⟩ := List.map_eq_cons_iff.1 hvs
  obtain ⟨a, rfl, hda⟩ := ha us hus
  obtain ⟨b, rfl, hdb⟩ := hb vs hvs
  exact ⟨_, erase_function .., .function hda ht hdb⟩

theorem ofApplication (ha : (application a).MadeUpBy ks) : (type a).MadeUpBy ks := by
  intro ts hts
  obtain ⟨a, rfl, hd⟩ := ha ts hts
  exact ⟨a, rfl, .ofApplication hd⟩

theorem applied (hk : k.capitalisedName? = some name) (has : (arguments as).MadeUpBy ks) :
    (application (.named (.ofWord name .empty) as .empty)).MadeUpBy (k :: ks) := by
  intro ts hts
  obtain ⟨t, us, rfl, rfl, hus⟩ := List.map_eq_cons_iff.1 hts
  obtain ⟨as, rfl, hd⟩ := has us hus
  refine ⟨_, ?_, .applied hk hd⟩
  rw [erase_named, TypeName.ofWord_span]

theorem ofAtom (ha : (atom a).MadeUpBy ks) : (application a).MadeUpBy ks := by
  intro ts hts
  obtain ⟨a, rfl, hd⟩ := ha ts hts
  exact ⟨a, rfl, .ofAtom hd⟩

theorem typeVariable (hk : k.lowercaseName? = some name) :
    (atom (.variable name .empty)).MadeUpBy [k] := by
  intro ts hts
  obtain ⟨t, rfl, rfl⟩ := List.map_eq_singleton_iff.1 hts
  exact ⟨_, erase_variable .., .typeVariable hk⟩

theorem named (hk : k.capitalisedName? = some name) :
    (atom (.named (.ofWord name .empty) [] .empty)).MadeUpBy [k] := by
  intro ts hts
  obtain ⟨t, rfl, rfl⟩ := List.map_eq_singleton_iff.1 hts
  refine ⟨_, ?_, .named hk⟩
  rw [erase_named, TypeName.ofWord_span, List.map_nil]

theorem unit : (atom (.unit .empty)).MadeUpBy [.opening .round, .closing .round] := by
  intro ts hts
  obtain ⟨l, us, rfl, hl, hus⟩ := List.map_eq_cons_iff.1 hts
  obtain ⟨r, rfl, hr⟩ := List.map_eq_singleton_iff.1 hus
  exact ⟨_, erase_unit _, .unit hl hr⟩

theorem parenthesized (ha : (type a).MadeUpBy ks) :
    (atom a).MadeUpBy (.opening .round :: (ks ++ [.closing .round])) := by
  intro ts hts
  obtain ⟨l, us, r, rfl, hl, hus, hr⟩ := Token.exists_bracketed hts
  obtain ⟨a, rfl, hd⟩ := ha us hus
  exact ⟨_, erase_withSpan .., .parenthesized hl hd hr⟩

theorem tuple (ha : (type a).MadeUpBy ks) (hb : (elements (b :: as)).MadeUpBy ls) :
    (atom (.tuple (a :: b :: as) .empty)).MadeUpBy
      (.opening .round :: (ks ++ (ls ++ [.closing .round]))) := by
  intro ts hts
  rw [← List.append_assoc] at hts
  obtain ⟨l, us, r, rfl, hl, hus, hr⟩ := Token.exists_bracketed hts
  obtain ⟨vs, ws, rfl, hvs, hws⟩ := List.map_eq_append_iff.1 hus
  obtain ⟨a, rfl, hda⟩ := ha vs hvs
  obtain ⟨bs, hbs, hdb⟩ := hb ws hws
  obtain ⟨b, bs, rfl, rfl, rfl⟩ := List.map_eq_cons_iff.1 hbs
  rw [List.append_assoc]
  exact ⟨_, erase_tuple .., .tuple hl hda hdb hr⟩

theorem emptyRecord :
    (atom (.record [] .empty)).MadeUpBy [.opening .brace, .closing .brace] := by
  intro ts hts
  obtain ⟨l, us, rfl, hl, hus⟩ := List.map_eq_cons_iff.1 hts
  obtain ⟨r, rfl, hr⟩ := List.map_eq_singleton_iff.1 hus
  exact ⟨_, erase_record .., .emptyRecord hl hr⟩

theorem record (hf : (field f).MadeUpBy ks) (hfs : (fields fs).MadeUpBy ls) :
    (atom (.record (f :: fs) .empty)).MadeUpBy
      (.opening .brace :: (ks ++ (ls ++ [.closing .brace]))) := by
  intro ts hts
  rw [← List.append_assoc] at hts
  obtain ⟨l, us, r, rfl, hl, hus, hr⟩ := Token.exists_bracketed hts
  obtain ⟨vs, ws, rfl, hvs, hws⟩ := List.map_eq_append_iff.1 hus
  obtain ⟨f, rfl, hdf⟩ := hf vs hvs
  obtain ⟨fs, rfl, hdfs⟩ := hfs ws hws
  rw [List.append_assoc]
  exact ⟨_, erase_record .., .record hl hdf hdfs hr⟩

theorem extensible (hk : k.lowercaseName? = some name) (hf : (field f).MadeUpBy ks)
    (hfs : (fields fs).MadeUpBy ls) :
    (atom (.extensible name (f :: fs) .empty)).MadeUpBy
      (.opening .brace :: k :: .symbol .bar :: (ks ++ (ls ++ [.closing .brace]))) := by
  intro ts hts
  obtain ⟨l, us, rfl, hl, hus⟩ := List.map_eq_cons_iff.1 hts
  rw [← List.append_assoc, ← List.cons_append] at hus
  obtain ⟨n, us, r, rfl, rfl, hus, hr⟩ := Token.exists_bracketed hus
  obtain ⟨t, us, rfl, ht, hus⟩ := List.map_eq_cons_iff.1 hus
  obtain ⟨vs, ws, rfl, hvs, hws⟩ := List.map_eq_append_iff.1 hus
  obtain ⟨f, rfl, hdf⟩ := hf vs hvs
  obtain ⟨fs, rfl, hdfs⟩ := hfs ws hws
  rw [List.cons_append, List.append_assoc]
  exact ⟨_, erase_extensible .., .extensible hl hk ht hdf hdfs hr⟩

theorem noArguments : (arguments []).MadeUpBy [] := by
  intro ts hts
  obtain rfl := List.map_eq_nil_iff.1 hts
  exact ⟨[], rfl, .noArguments⟩

theorem argument (ha : (atom a).MadeUpBy ks) (has : (arguments as).MadeUpBy ls) :
    (arguments (a :: as)).MadeUpBy (ks ++ ls) := by
  intro ts hts
  obtain ⟨us, vs, rfl, hus, hvs⟩ := List.map_eq_append_iff.1 hts
  obtain ⟨a, rfl, hda⟩ := ha us hus
  obtain ⟨as, rfl, hdas⟩ := has vs hvs
  exact ⟨a :: as, rfl, .argument hda hdas⟩

theorem noElements : (elements []).MadeUpBy [] := by
  intro ts hts
  obtain rfl := List.map_eq_nil_iff.1 hts
  exact ⟨[], rfl, .noElements⟩

theorem element (ha : (type a).MadeUpBy ks) (has : (elements as).MadeUpBy ls) :
    (elements (a :: as)).MadeUpBy (.symbol .comma :: (ks ++ ls)) := by
  intro ts hts
  obtain ⟨t, us, rfl, ht, hus⟩ := List.map_eq_cons_iff.1 hts
  obtain ⟨vs, ws, rfl, hvs, hws⟩ := List.map_eq_append_iff.1 hus
  obtain ⟨a, rfl, hda⟩ := ha vs hvs
  obtain ⟨as, rfl, hdas⟩ := has ws hws
  exact ⟨a :: as, rfl, .element ht hda hdas⟩

theorem field (hk : k.lowercaseName? = some name) (ha : (type a).MadeUpBy ks) :
    (Phrase.field ⟨name, a, .empty⟩).MadeUpBy (k :: .symbol .colon :: ks) := by
  intro ts hts
  obtain ⟨n, us, rfl, rfl, hus⟩ := List.map_eq_cons_iff.1 hts
  obtain ⟨t, us', rfl, ht, hus'⟩ := List.map_eq_cons_iff.1 hus
  obtain ⟨a, rfl, hd⟩ := ha us' hus'
  exact ⟨_, rfl, .field hk ht hd⟩

theorem noFields : (Phrase.fields []).MadeUpBy [] := by
  intro ts hts
  obtain rfl := List.map_eq_nil_iff.1 hts
  exact ⟨[], rfl, .noFields⟩

theorem fields (hf : (Phrase.field f).MadeUpBy ks) (hfs : (Phrase.fields fs).MadeUpBy ls) :
    (Phrase.fields (f :: fs)).MadeUpBy (.symbol .comma :: (ks ++ ls)) := by
  intro ts hts
  obtain ⟨t, us, rfl, ht, hus⟩ := List.map_eq_cons_iff.1 hts
  obtain ⟨vs, ws, rfl, hvs, hws⟩ := List.map_eq_append_iff.1 hus
  obtain ⟨f, rfl, hdf⟩ := hf vs hvs
  obtain ⟨fs, rfl, hdfs⟩ := hfs ws hws
  exact ⟨f :: fs, rfl, .fields ht hdf hdfs⟩

end MadeUpBy

end Phrase

theorem Generates.madeUpBy {ks : List TokenKind} {p : Phrase} (h : Generates ks p) :
    p.MadeUpBy ks := by
  induction h with
  | function _ _ iha ihb => exact .function iha ihb
  | ofApplication _ ih => exact .ofApplication ih
  | applied hk _ ih => exact .applied hk ih
  | ofAtom _ ih => exact .ofAtom ih
  | typeVariable hk => exact .typeVariable hk
  | named hk => exact .named hk
  | unit => exact .unit
  | parenthesized _ ih => exact .parenthesized ih
  | tuple _ _ iha ihb => exact .tuple iha ihb
  | emptyRecord => exact .emptyRecord
  | record _ _ ihf ihfs => exact .record ihf ihfs
  | extensible hk _ _ ihf ihfs => exact .extensible hk ihf ihfs
  | noArguments => exact .noArguments
  | argument _ _ iha ihas => exact .argument iha ihas
  | noElements => exact .noElements
  | element _ _ iha ihas => exact .element iha ihas
  | field hk _ ih => exact .field hk ih
  | noFields => exact .noFields
  | fields _ _ ihf ihfs => exact .fields ihf ihfs

def TokenKind.ContinuesType (k : TokenKind) : Prop :=
  ∃ e ∈ Expected.symbol .arrow :: atomOpeners, e.accepts k = true

open Reader in
theorem Ends.of_not_continues {rest : List Token}
    (h : ∀ t ∈ rest.head?, t.startsDeclaration = true ∨ ¬t.kind.ContinuesType) : Ends rest := by
  have hnot (e : Expected) (he : e ∈ Expected.symbol .arrow :: atomOpeners) :
      opens e rest = false := by
    cases rest with
    | nil => rfl
    | cons t rest =>
        rw [opens_cons]
        rcases h t rfl with ht | ht
        · simp [ht]
        · have ha : e.accepts t.kind = false := by
            by_contra hc
            exact ht ⟨e, he, by simpa using hc⟩
          simp [ha]
  refine ⟨?_, hnot _ (List.mem_cons_self ..)⟩
  rw [opensAtom, List.any_eq_false]
  intro e he
  simp [hnot e (List.mem_cons_of_mem _ he)]

namespace Reader

theorem generates_of_run_typeExpr {ts rest : List Token} {c d : Cursor} {a : TypeExpr}
    (hc : c.ahead = ts ++ rest) (h : typeExpr.run c = .ok a d) (hd : d.ahead = rest) :
    Generates (ts.map Token.kind) (.type a.erase) := by
  have hreads := reads_typeExpr c
  rw [h] at hreads
  obtain ⟨us, htakes, hderives⟩ := hreads
  have happend : us ++ rest = ts ++ rest := by rw [← hc, htakes.ahead, hd]
  have hus : us = ts := List.append_cancel_right happend
  subst hus
  exact hderives.generates

theorem run_typeExpr_of_generates {ts rest : List Token} {c : Cursor} {e : TypeExpr}
    (hin : Inside ts) (hr : Ends rest) (hc : c.ahead = ts ++ rest)
    (h : Generates (ts.map Token.kind) (.type e)) :
    ∃ a d, typeExpr.run c = .ok a d ∧ d.ahead = rest ∧ a.erase = e := by
  obtain ⟨a, rfl, hd⟩ := h.madeUpBy ts rfl
  obtain ⟨expected, hrun⟩ := accepts_typeExpr ts.length hd hin (Nat.le_refl _) hr c.last c.expected
  rw [← hc] at hrun
  exact ⟨a, _, hrun, rfl, rfl⟩

end Reader

open Reader in
theorem Generates.unique {ks : List TokenKind} {a b : TypeExpr} (ha : Generates ks (.type a))
    (hb : Generates ks (.type b)) : a = b := by
  -- the kinds are those of some tokens, of which the reader makes one type expression
  let ts : List Token := ks.map fun k => ⟨k, .empty, 1⟩
  have hts : ts.map Token.kind = ks := by
    rw [List.map_map]
    exact List.map_id _
  have hin : Inside ts := by
    intro t ht
    obtain ⟨k, -, rfl⟩ := List.mem_map.1 ht
    rfl
  have hends : Ends [] := .of_not_continues (by simp)
  rw [← hts] at ha hb
  have hahead : (Cursor.start ts).ahead = ts ++ [] := by simp [Cursor.start]
  obtain ⟨a', d, hrun, -, rfl⟩ := run_typeExpr_of_generates hin hends hahead ha
  obtain ⟨b', d', hrun', -, rfl⟩ := run_typeExpr_of_generates hin hends hahead hb
  rw [hrun] at hrun'
  cases hrun'
  rfl

open Reader in
theorem typeExpr_run_iff_generates {ts rest : List Token} {c : Cursor} (hin : Inside ts)
    (hrest : ∀ t ∈ rest.head?, t.startsDeclaration = true ∨ ¬t.kind.ContinuesType)
    (hc : c.ahead = ts ++ rest) :
    (∀ e, (∃ a d, typeExpr.run c = .ok a d ∧ d.ahead = rest ∧ a.erase = e) ↔
      Generates (ts.map Token.kind) (.type e)) ∧
    ∀ e e', Generates (ts.map Token.kind) (.type e) →
      Generates (ts.map Token.kind) (.type e') → e = e' := by
  refine ⟨fun e => ⟨?_, ?_⟩, ?_⟩
  · rintro ⟨a, d, hrun, hd, rfl⟩
    exact generates_of_run_typeExpr hc hrun hd
  · intro h
    exact run_typeExpr_of_generates hin (.of_not_continues hrest) hc h
  · intro e e' he he'
    exact he.unique he'

open Reader in
theorem typeExpr_run_iff_generates_function :
    ∃ a d, typeExpr.run (.start
        [⟨.word "List", ⟨4, 4⟩, 4⟩, ⟨.opening .round, ⟨9, 1⟩, 9⟩, ⟨.word "a", ⟨10, 1⟩, 10⟩,
          ⟨.closing .round, ⟨11, 1⟩, 11⟩, ⟨.symbol .arrow, ⟨13, 2⟩, 13⟩, ⟨.word "b", ⟨16, 1⟩, 16⟩,
          ⟨.symbol .equals, ⟨18, 1⟩, 18⟩]) = .ok a d ∧
      d.ahead = [⟨.symbol .equals, ⟨18, 1⟩, 18⟩] ∧
      a.erase = .function (.named ⟨none, "List", .empty⟩ [.variable "a" .empty] .empty)
        (.variable "b" .empty) .empty := by
  have hvariable (name : String) (h : (TokenKind.word name).lowercaseName? = some name) :
      Generates [.word name] (.type (.variable name .empty)) :=
    .ofApplication (.ofAtom (.typeVariable h))
  have hgroup := Generates.parenthesized (hvariable "a" (by decide))
  have hname : (TokenKind.word "List").capitalisedName? = some "List" := by decide
  have hlist := Generates.applied hname (.argument hgroup .noArguments)
  have hfunction := Generates.function hlist (hvariable "b" (by decide))
  let ts : List Token := [⟨.word "List", ⟨4, 4⟩, 4⟩, ⟨.opening .round, ⟨9, 1⟩, 9⟩,
    ⟨.word "a", ⟨10, 1⟩, 10⟩, ⟨.closing .round, ⟨11, 1⟩, 11⟩, ⟨.symbol .arrow, ⟨13, 2⟩, 13⟩,
    ⟨.word "b", ⟨16, 1⟩, 16⟩]
  have hin : Inside ts := by
    unfold Inside
    decide
  have hrest : ∀ t ∈ [(⟨.symbol .equals, ⟨18, 1⟩, 18⟩ : Token)].head?,
      t.startsDeclaration = true ∨ ¬t.kind.ContinuesType := by
    unfold TokenKind.ContinuesType
    decide
  exact ((typeExpr_run_iff_generates hin hrest rfl).1 _).2 hfunction

end ElmTypes
