import AtomicCss.ClassName
import AtomicCss.Css.Color
import AtomicCss.Css.Decoration
import AtomicCss.Css.Scale
import AtomicCss.Keys.Tree

/-!
# Stylesheets

Every style key belongs to the family its beginning names, and each family makes its rules. A
stylesheet holds the rules of many keys, each once and in order of text; sheets of stateful rules
are ordered by the precedence of states first. The rules of a tree go to one sheet, or to bundles:
the core, the effects that depend on a state, and each palette.
-/
namespace AtomicCss
namespace Rule

/-- What makes the rules of a family of keys. -/
abbrev Family := RuleOptions → (key className : String) → Except RuleError Rule

/-- The families by the beginnings of their keys. The first that fits takes a key. -/
def families : List (List String × Family) :=
  let decoration (p : DecorationProperty) : List String × Family :=
    ([p.name], fun _ => ofDecoration p)
  [decoration .borderStyle,
    (["shadow"], fun o => ofShadow o.force),
    decoration .textAlign, decoration .textLineType, decoration .textItalic, decoration .textWeight,
    decoration .textFont,
    ([ScaleProperty.borderRadius.name], ofRadius),
    ((ScaleProperty.all.filter (· != .borderRadius)).map ScaleProperty.name,
      fun o => ofScale o.queries),
    (ColorProperty.all.map ColorProperty.name, fun o => ofColor o.force)]

def ofKey (o : RuleOptions) (key className : String) : Except RuleError Rule :=
  match families.find? fun (starts, _) => starts.any fun s => key.startsWith s with
  | some (_, family) => family o key className
  | none => .error (.family key)

/-- Whether a word occurs with no word character after it. -/
def hasWord (word : List Char) : List Char → Bool
  | [] => false
  | c :: cs =>
    (match Text.after? word (c :: cs) with
      | some rest => !rest.head?.any Word.isWord
      | none => false) || hasWord word cs

/-- Whether one of some pseudo-classes occurs in the text of a rule, or begins one that does. -/
def hasPseudo (names : List String) (body : String) : Bool :=
  names.any fun name => hasWord (':' :: name.toList) body.toList

/-- Whether a class of a dash and one letter occurs in a text. -/
def hasForcedClass : List Char → Bool
  | [] => false
  | c :: cs =>
    (match c :: cs with
      | '.' :: '-' :: letter :: rest =>
        'a' ≤ letter && letter ≤ 'z' && !rest.head?.any Word.isWord
      | _ => false) || hasForcedClass cs

/-- Whether a rule applies only in a state. -/
def isGated (body : String) : Bool :=
  hasPseudo ["hover", "focus", "active", "disabled", "read-only"] body
    || hasForcedClass body.toList

/-- The rank of a rule: later states win, and pressing wins over all. -/
def precedence (body : String) : Nat :=
  if hasPseudo ["active"] body then 3
  else if hasPseudo ["hover"] body then 2
  else if hasPseudo ["focus"] body then 1
  else 0

end Rule

/-- How the rules of a sheet are ordered and joined. -/
structure SheetOptions where
  byPrecedence : Bool
  combineMedia : Bool

namespace Stylesheet

def textOrder (a b : Rule) : Bool := decide (a.text ≤ b.text)

/-- The order of rules by precedence and then text. -/
def stateOrder (a b : Rule) : Bool :=
  let m := Rule.precedence a.body
  let n := Rule.precedence b.body
  if m = n then textOrder a b else decide (m < n)

/-- The rules of a sheet, each once, in the order of its text. -/
def ordered (byPrecedence : Bool) (rules : List Rule) : List Rule :=
  rules.eraseDups.mergeSort (if byPrecedence then stateOrder else textOrder)

def text (o : SheetOptions) (rules : List Rule) : String :=
  let rules := ordered o.byPrecedence rules
  "\n".intercalate (if o.combineMedia then Rule.combine rules else rules.map Rule.text)

def ruleOf (o : RuleOptions) (names : Dict String) (key : String) : Except RuleError Rule :=
  Rule.ofKey o key (ClassName.of names key)

def ofTree (o : RuleOptions) (names : Dict String) (combineMedia : Bool) (t : KeyTree) :
    Except RuleError String := do
  let rules ← t.keys.mapM (ruleOf o names)
  pure (text ⟨false, combineMedia⟩ rules)

end Stylesheet

/-- The sheets of a tree, apart by what they are for. -/
structure Bundles where
  core : String
  effects : String
  palettes : Dict String

/-- The rules of the bundles, with repetitions and in the order of the tree. -/
structure BundleRules where
  core : List Rule
  effects : List Rule
  palettes : Dict (List Rule)

namespace BundleRules

/-- The rules of one element by bundle. -/
structure EntryRules where
  core : List Rule
  effects : List Rule
  palettes : List (String × List Rule)

/-- The rule of a palette's key under its class name. -/
def colorRule (o : RuleOptions) (names : Dict String) (key : String) : Except RuleError Rule :=
  Rule.ofColor o.force key (ClassName.of names key)

def roleKeys (roles : Dict Buckets) : List String :=
  roles.flatMap fun (_, labels) => Entry.bucketKeys (some labels)

def paletteRules (o : RuleOptions) (names : Dict String) :
    String × Dict Buckets → Except RuleError (String × List Rule)
  | (palette, roles) => do pure (palette, ← (roleKeys roles).mapM (colorRule o names))

/-- The rules of an element. Effects without a state belong to the core. -/
def entryRules (o : RuleOptions) (names : Dict String) (e : Entry) :
    Except RuleError EntryRules := do
  let decorations ← (e.decorations.getD []).mapM (Stylesheet.ruleOf o names)
  let scales ← (Entry.bucketKeys e.scales).mapM (Stylesheet.ruleOf o names)
  let effects ← (Entry.bucketKeys e.effects).mapM (Stylesheet.ruleOf o names)
  let palettes ← (e.palettes.getD []).mapM (paletteRules o names)
  pure { core := decorations ++ scales ++ effects.filter fun r => !Rule.isGated r.body
         effects := effects.filter fun r => Rule.isGated r.body
         palettes }

/-- The rules of a tree by bundle. -/
def ofTree (o : RuleOptions) (names : Dict String) (t : KeyTree) :
    Except RuleError BundleRules := do
  let parts ← t.entries.mapM fun (_, _, e) => entryRules o names e
  pure { core := parts.flatMap (·.core)
         effects := parts.flatMap (·.effects)
         palettes := (parts.flatMap (·.palettes)).foldl
           (fun d (palette, rules) => d.append palette rules) [] }

end BundleRules

namespace Bundles

def ofRules (combineMedia : Bool) (r : BundleRules) : Bundles where
  core := Stylesheet.text ⟨false, combineMedia⟩ r.core
  effects := Stylesheet.text ⟨true, combineMedia⟩ r.effects
  palettes := r.palettes.mapValues (Stylesheet.text ⟨true, combineMedia⟩)

def ofTree (o : RuleOptions) (names : Dict String) (combineMedia : Bool) (t : KeyTree) :
    Except RuleError Bundles := do
  pure (ofRules combineMedia (← BundleRules.ofTree o names t))

end Bundles
end AtomicCss
