import ScratchExport.Proofs.Fits

/-!
# What each block becomes

`plan_becomes` goes through the opcodes. Every plan fits its block: the phrase comes back to where
it began, its names come from the table, and what a placeholder shows is fixed or chosen in a menu.
Where there is no plan, a slot of the block is the reason.

The fixed texts are read one by one, from the seam in front of the text to the one behind it. Where
a phrase holds a place, such as the property of a sprite, the place is read first, as if it stood
alone.
-/

namespace ScratchExport.Compile
open Outcome (FaultsIn Within)

variable {ctx : Context} {kind : BlockKind} {slots : Slots} {locals : Name.Space}

/-! ### Places -/

theorem spritePhrase_fits {c : String} (hc : c ∈ ctx.names.identifiers) :
    (spritePhrase c).Fits ctx kind slots locals ⟨0, false, false⟩ ⟨0, false, false⟩ :=
  .append (.append (.text rfl) ⟨hc, rfl, rfl, rfl⟩) (.loose rfl)

theorem ownedPhrase_fits {container : String} (h : container = "vars" ∨ container = "watchers")
    (owner : Nat) {property : String} (hproperty : property ∈ ctx.names.identifiers) :
    (ownedPhrase ctx container owner property).Fits ctx kind slots locals ⟨0, false, false⟩
      ⟨0, false, false⟩ := by
  unfold ownedPhrase
  rcases h with rfl | rfl <;> split_ifs
  all_goals
    repeat' first
      | apply Phrase.Fits.append | exact .text rfl
      | exact ⟨fun _ => .identifier hproperty, rfl, rfl, rfl⟩

theorem pointOf_fits {choice : Value} {x y : Phrase} (h : pointOf ctx choice = some (x, y)) :
    x.Fits ctx kind slots locals ⟨0, false, false⟩ ⟨0, false, false⟩ ∧
      y.Fits ctx kind slots locals ⟨0, false, false⟩ ⟨0, false, false⟩ := by
  rcases pointOf_eq h with ⟨rfl, rfl⟩ | ⟨c, hc, rfl, rfl⟩
  · exact ⟨.text rfl, .text rfl⟩
  · exact ⟨.append (spritePhrase_fits hc) (.text rfl), .append (spritePhrase_fits hc) (.text rfl)⟩

theorem placeOf_fits {choice : Value} {x y : Phrase} (h : placeOf ctx choice = some (x, y)) :
    x.Fits ctx kind slots locals ⟨0, false, false⟩ ⟨0, false, false⟩ ∧
      y.Fits ctx kind slots locals ⟨0, false, false⟩ ⟨0, false, false⟩ := by
  unfold placeOf at h
  split_ifs at h
  · cases h
    exact ⟨.loose rfl, .loose rfl⟩
  · exact pointOf_fits h

theorem ownerOf_fits {choice : Value} {i : Nat} {owner : Phrase}
    (h : ownerOf ctx choice = some (i, owner)) :
    owner.Fits ctx kind slots locals ⟨0, false, false⟩ ⟨0, false, false⟩ := by
  rcases ownerOf_eq h with rfl | ⟨c, hc, rfl⟩
  · exact .text rfl
  · exact spritePhrase_fits hc

/-- The name of an effect stands as it is, so behind it a slash may be pending. -/
theorem effect_fits (hkind : kind.namesEffect = true) {owner effect : String}
    (heffect : IsEffect slots effect)
    (howner : (Phrase.text owner).Fits ctx kind slots locals ⟨0, false, false⟩ ⟨0, false, true⟩) :
    (.text owner ++ .effect effect : Phrase).Fits ctx kind slots locals ⟨0, false, false⟩
      ⟨0, true, false⟩ :=
  .append howner ⟨⟨hkind, heffect⟩, rfl, rfl, rfl⟩

/-! ### Parts of plans -/

theorem suspend_fits {method : String} {args : Phrase}
    (hmethod : (Phrase.text method).Fits ctx kind slots locals ⟨0, false, false⟩ ⟨0, false, false⟩)
    (hargs : args.Fits ctx kind slots locals ⟨1, false, true⟩ ⟨1, false, false⟩) :
    (suspend ctx method args).Fits ctx kind slots locals ⟨0, false, true⟩ ⟨0, false, false⟩ := by
  unfold suspend
  split_ifs with hwarp
  · repeat' first
      | apply Phrase.Fits.append | exact hargs | exact hmethod.deeper bot_le
      | exact .text rfl | exact .loose rfl
  · have hyield : (Phrase.text "yield* this.").Fits ctx kind slots locals
        ⟨0, false, true⟩ ⟨0, false, true⟩ :=
      .refresh (Bool.eq_false_iff.2 hwarp) rfl
    repeat' first
      | exact hyield | apply Phrase.Fits.append | exact hargs | exact hmethod.deeper bot_le
      | exact .text rfl | exact .loose rfl

theorem loop_fits {head body : Phrase}
    (hhead : head.Fits ctx kind slots locals ⟨0, false, true⟩ ⟨0, false, false⟩)
    (hbody : body.Fits ctx kind slots locals ⟨1, false, true⟩ ⟨1, false, false⟩) :
    (loop ctx head body).Fits ctx kind slots locals ⟨0, false, true⟩ ⟨0, false, false⟩ := by
  have hwait : (Phrase.text (if ctx.warp then "" else "yield;\n")).Fits ctx kind slots locals
      ⟨1, false, false⟩ ⟨1, false, false⟩ := by
    split_ifs with hwarp
    · exact .text rfl
    · have hyield : (Phrase.text "yield;\n").Fits ctx kind slots locals ⟨1, false, false⟩
          ⟨1, false, true⟩ :=
        .refresh (Bool.eq_false_iff.2 hwarp) rfl
      exact hyield.relax (f := false) le_rfl bot_le
  exact .append (.append (.append (.append hhead (.text rfl)) hbody) hwait) (.loose rfl)

theorem countingHead_fits {counter : String} (hcounter : IsName ctx counter)
    {start relation limit : Phrase}
    (hstart : start.Fits ctx kind slots locals ⟨1, false, true⟩ ⟨1, false, false⟩)
    (hrelation : relation.Fits ctx kind slots locals ⟨1, false, false⟩ ⟨1, false, true⟩)
    (hlimit : limit.Fits ctx kind slots locals ⟨1, false, true⟩ ⟨1, false, false⟩) :
    (countingHead counter start relation limit).Fits ctx kind slots locals ⟨0, false, true⟩
      ⟨0, false, false⟩ := by
  unfold countingHead
  repeat' first
    | apply Phrase.Fits.append | exact hstart | exact hrelation | exact hlimit
    | exact ⟨fun _ => hcounter, rfl, rfl, rfl⟩ | exact .text rfl | exact .loose rfl

theorem changeBy_becomes {place : Phrase} {slash g : Bool}
    (h : place.Fits ctx kind slots locals ⟨0, false, false⟩ ⟨0, slash, g⟩) (slot : String)
    (cast : Bool) :
    Becomes ctx kind slots locals (do return .statement (← changeBy slots place slot cast)) := by
  have hplace {d : Nat} {f : Bool} :
      place.Fits ctx kind slots locals ⟨d, false, f⟩ ⟨d, slash, false⟩ :=
    (h.relax (f := false) le_rfl bot_le).deeper bot_le
  have hchange : Within (Stops ctx kind slots) (changeBy slots place slot cast)
      (·.Fits ctx kind slots locals ⟨0, false, true⟩ ⟨0, false, false⟩) := by
    apply changeBy_within (fun _ => .number)
    all_goals try intro x
    all_goals
      cases slash <;>
        repeat' first
          | apply Phrase.Fits.append | exact hplace | exact .text rfl | exact ⟨rfl, rfl, rfl⟩
          | exact .loose rfl
  exact .bind hchange.faults fun p hp => .pure (hchange.result p hp)

theorem withChoice_becomes {op : Opcode} {slot : String} {plan : Value → Except Fault Plan}
    (hplan : ∀ choice, slots.choice slot = .ok choice →
      Becomes ctx (.known op) slots locals (plan choice)) :
    Becomes ctx (.known op) slots locals (withChoice slots slot op.label plan) := by
  unfold withChoice
  split_ifs
  · exact .pure (.ended rfl (by decide))
  · exact .bind (fun _ => .choice) hplan

theorem withEffect_becomes {op : Opcode} {plan : String → Except Fault Plan}
    (hplan : ∀ effect, IsEffect slots effect → Becomes ctx (.known op) slots locals (plan effect)) :
    Becomes ctx (.known op) slots locals (withEffect slots op.label plan) := by
  refine .bind (fun _ => .choice) fun choice hchoice => .bind (fun _ => .effect hchoice) fun t ht =>
    ?_
  dsimp only
  split_ifs
  · exact .pure (.ended rfl (by decide))
  · refine hplan _ ⟨t, ?_, rfl⟩
    cases choice with
    | text t' => cases ht; exact hchoice
    | _ => cases ht

theorem missingData_becomes (slot : String) (data : DataKind) :
    Becomes ctx kind slots locals (missingData slots slot data) := by
  refine .bind (fun _ => .reference) fun ref? href => .pure ⟨by cases data <;> decide, ?_⟩
  cases ref? with
  | none => exact .nothing
  | some ref => exact .reference href

theorem dataPhrase?_faults (slot container : String) (data : DataKind) :
    FaultsIn (Stops ctx kind slots) (dataPhrase? ctx slots slot data container) :=
  .bind (fun _ => .reference) fun _ _ => .pure _

theorem withData_becomes {slot : String} {data : DataKind} {plan : Phrase → Except Fault Plan}
    (hplan : ∀ place : Phrase, place.Fits ctx kind slots locals ⟨0, false, false⟩
      ⟨0, false, false⟩ → Becomes ctx kind slots locals (plan place)) :
    Becomes ctx kind slots locals (withData ctx slots slot data plan) := by
  refine .bind (dataPhrase?_faults _ _ _) fun place hplace => ?_
  rcases dataPhrase?_eq hplace with rfl | ⟨owner, property, hproperty, rfl⟩
  · exact missingData_becomes slot data
  · exact hplan _ (ownedPhrase_fits (.inl rfl) owner hproperty)

theorem watcherPlan_becomes (slot : String) (data : DataKind) (visible : Bool) :
    Becomes ctx kind slots locals (watcherPlan ctx slots slot data visible) := by
  refine .bind (dataPhrase?_faults _ _ _) fun place hplace => ?_
  rcases dataPhrase?_eq hplace with rfl | ⟨owner, property, hproperty, rfl⟩
  · exact missingData_becomes slot data
  · refine .pure
      (.append (.append ((ownedPhrase_fits (.inr rfl) owner hproperty).deeper bot_le) (.text rfl))
      ?_)
    cases visible <;> exact .text rfl

/-! ### Opcodes -/

theorem motion_becomes (op : Motion) :
    Becomes ctx (.known (.motion op)) slots locals (motion ctx slots op) := by
  cases op with
  | turnRight | changeXBy | changeYBy => exact changeBy_becomes (.text rfl) _ _
  | goTo =>
    refine withChoice_becomes fun choice hchoice => ?_
    split
    · next hxy =>
      obtain ⟨hx, hy⟩ := placeOf_fits hxy
      refine .ok (Plan.fits_phrase ?_)
      repeat' first
        | apply Phrase.Fits.append | exact hx.deeper bot_le | exact hy.deeper bot_le
        | exact .text rfl | exact .loose rfl
    · exact .ok ⟨by decide, .choice hchoice⟩
  | glideTo =>
    refine withChoice_becomes fun choice hchoice => ?_
    split
    · next hxy =>
      obtain ⟨hx, hy⟩ := placeOf_fits hxy
      refine .ok (suspend_fits (.text rfl) ?_)
      repeat' first
        | apply Phrase.Fits.append | exact hx.deeper bot_le | exact hy.deeper bot_le
        | exact ⟨rfl, rfl, rfl⟩ | exact .text rfl
    · exact .ok ⟨by decide, .choice hchoice⟩
  | glideSecsToXY =>
    refine .ok (suspend_fits (.text rfl) ?_)
    repeat' first | apply Phrase.Fits.append | exact .text rfl | exact ⟨rfl, rfl, rfl⟩
  | pointTowards =>
    refine withChoice_becomes fun choice hchoice => ?_
    split_ifs
    · exact .ok (Plan.fits_phrase (.loose rfl))
    · split
      · next hxy =>
        obtain ⟨hx, hy⟩ := pointOf_fits hxy
        refine .ok (Plan.fits_phrase ?_)
        repeat' first
          | apply Phrase.Fits.append | exact hx.deeper bot_le | exact hy.deeper bot_le
          | exact .text rfl | exact .loose rfl
      · exact .ok ⟨by decide, .choice hchoice⟩
  | setRotationStyle =>
    refine .bind (fun _ => .choice) fun choice hchoice => .bind (fun _ => .key hchoice) fun key _ =>
      ?_
    split
    · next style hstyle =>
      unfold rotationStyle? at hstyle
      split at hstyle <;> cases hstyle <;>
        exact .pure (Plan.fits_phrase (.append (.text rfl) (.text rfl)))
    · exact .pure (.style hchoice)
  | goToMenu | glideToMenu | pointTowardsMenu => exact .ok rfl
  | moveSteps | turnLeft | goToXY | pointInDirection | setX | setY | ifOnEdgeBounce | xPosition
  | yPosition | direction =>
    refine .ok (Plan.fits_phrase ?_)
    repeat' first
      | apply Phrase.Fits.append | exact .text rfl | exact ⟨rfl, rfl, rfl⟩ | exact .loose rfl
  | _ => exact .ok (IsLabel.opcode rfl)

theorem looks_becomes (op : Looks) :
    Becomes ctx (.known (.looks op)) slots locals (looks ctx slots op) := by
  cases op with
  | changeSizeBy => exact changeBy_becomes (.text rfl) _ _
  | changeEffectBy =>
    unfold looks
    exact withEffect_becomes fun effect heffect =>
      changeBy_becomes (effect_fits rfl heffect (.text rfl)) _ _
  | setEffectTo =>
    unfold looks
    refine withEffect_becomes fun effect heffect => .ok (Plan.fits_phrase ?_)
    exact .append (.append ((effect_fits rfl heffect (.text rfl)).deeper bot_le) (.text rfl))
      ⟨rfl, rfl, rfl⟩
  | goToFrontBack =>
    refine .bind (fun _ => .choice) fun choice _ => ?_
    split_ifs <;> exact .pure (Plan.fits_phrase (.loose rfl))
  | goForwardBackwardLayers =>
    unfold looks
    dsimp only
    split
    · refine .ok (Plan.fits_phrase ?_)
      split_ifs <;>
        repeat' first
          | apply Phrase.Fits.append | exact .text rfl | exact ⟨rfl, rfl, rfl⟩ | exact .loose rfl
    · next fault hfault => exact .ok ⟨⟨0, false, false⟩, ⟨rfl, rfl, rfl⟩, Stops.choice hfault⟩
  | costumeNumberName | backdropNumberName =>
    refine .bind (fun _ => .choice) fun choice _ => ?_
    split_ifs <;> exact .pure (Plan.fits_phrase (.append (.text rfl) (.text rfl)))
  | costume | backdrops => exact .ok rfl
  | sayForSecs | thinkForSecs =>
    refine .ok (suspend_fits (.text rfl) ?_)
    repeat' first
      | apply Phrase.Fits.after | apply Phrase.Fits.append
      | exact .text rfl | exact ⟨rfl, rfl, rfl⟩
  | say | think | switchCostumeTo | nextCostume | switchBackdropTo | nextBackdrop | setSizeTo
  | clearGraphicEffects | showSprite | hideSprite | size =>
    refine .ok (Plan.fits_phrase ?_)
    repeat' first
      | apply Phrase.Fits.append | exact .text rfl | exact ⟨rfl, rfl, rfl⟩ | exact .loose rfl
  | _ => exact .ok (IsLabel.opcode rfl)

theorem audio_becomes (op : Audio) :
    Becomes ctx (.known (.audio op)) slots locals (audio ctx slots op) := by
  cases op with
  | changeVolumeBy => exact changeBy_becomes (.text rfl) _ _
  | changeEffectBy =>
    unfold audio
    exact withEffect_becomes fun effect heffect =>
      changeBy_becomes (effect_fits rfl heffect (.text rfl)) _ _
  | setEffectTo =>
    unfold audio
    refine withEffect_becomes fun effect heffect => .ok (Plan.fits_phrase ?_)
    exact .append (.append ((effect_fits rfl heffect (.text rfl)).deeper bot_le) (.text rfl))
      ⟨rfl, rfl, rfl⟩
  | soundsMenu => exact .ok rfl
  | playUntilDone | play => exact .ok (suspend_fits (.text rfl) ⟨rfl, rfl, rfl⟩)
  | _ =>
    refine .ok (Plan.fits_phrase ?_)
    repeat' first
      | apply Phrase.Fits.append | exact .text rfl | exact ⟨rfl, rfl, rfl⟩ | exact .loose rfl

theorem event_becomes (op : Event) :
    Becomes ctx (.known (.event op)) slots locals (event ctx slots op) := by
  cases op with
  | broadcast =>
    refine .ok (Plan.fits_phrase ?_)
    repeat' first
      | apply Phrase.Fits.append | exact .text rfl | exact ⟨rfl, rfl, rfl⟩ | exact .loose rfl
  | broadcastAndWait => exact .ok (suspend_fits (.text rfl) ⟨rfl, rfl, rfl⟩)
  | broadcastMenu | touchingObjectMenu => exact .ok rfl
  | _ => exact .ok (IsLabel.opcode rfl)

theorem repeatPlan_becomes :
    Becomes ctx (.known (.control .loop)) slots locals (repeatPlan ctx slots locals) := by
  refine .bind (fun _ => .number) fun count _ => ?_
  dsimp only
  split_ifs
  · refine .pure
      (loop_fits (countingHead_fits (.counter locals) ?_ (.text rfl) ⟨fun _ => .limit _, rfl, rfl,
      rfl⟩) ⟨.inr (.inl rfl), rfl, rfl, rfl⟩)
    split <;>
      repeat' first
        | apply Phrase.Fits.append | exact .text rfl | exact ⟨fun _ => .limit _, rfl, rfl, rfl⟩
        | exact ⟨rfl, rfl, rfl⟩ | exact .loose rfl
  · refine .pure (loop_fits (countingHead_fits (.counter locals) (.loose rfl) (.text rfl) ?_)
      ⟨.inr (.inl rfl), rfl, rfl, rfl⟩)
    split <;> exact ⟨rfl, rfl, rfl⟩

theorem control_becomes (op : Control) :
    Becomes ctx (.known (.control op)) slots locals (control ctx slots locals op) := by
  cases op with
  | wait => exact .ok (suspend_fits (.text rfl) ⟨rfl, rfl, rfl⟩)
  | loop => exact repeatPlan_becomes
  | forever | repeatWhile | repeatUntil | waitUntil =>
    refine .ok (loop_fits ?_ ?_) <;>
      repeat' first
        | apply Phrase.Fits.append | exact .text rfl | exact ⟨rfl, rfl, rfl⟩
        | exact ⟨.inl rfl, rfl, rfl, rfl⟩ | exact .loose rfl
  | forEach =>
    refine withData_becomes fun place hplace => .ok ?_
    refine loop_fits (countingHead_fits (.counter locals) (.loose rfl) (.text rfl) ⟨rfl, rfl, rfl⟩)
      ?_
    repeat' first
      | apply Phrase.Fits.append | exact hplace.deeper bot_le | exact .text rfl
      | exact ⟨fun _ => .counter locals, rfl, rfl, rfl⟩ | exact ⟨.inr (.inr rfl), rfl, rfl, rfl⟩
  | stop =>
    refine .bind (fun _ => .choice) fun option hoption => ?_
    split_ifs
    · exact .pure (Plan.fits_phrase (.loose rfl))
    · exact .pure (.word (by decide) rfl hoption)
  | createCloneOf =>
    refine withChoice_becomes fun choice hchoice => ?_
    split_ifs
    · exact .ok (Plan.fits_phrase (.loose rfl))
    · split
      · next hsprite =>
        obtain ⟨c, hc, rfl⟩ := sprite?_eq hsprite
        exact .ok (Plan.fits_phrase (.append ((spritePhrase_fits hc).deeper bot_le) (.loose rfl)))
      · exact .ok ⟨by decide, .choice hchoice⟩
  | createCloneOfMenu => exact .ok rfl
  | startAsClone => exact .ok (IsLabel.opcode rfl)
  | _ =>
    refine .ok (Plan.fits_phrase ?_)
    repeat' first
      | apply Phrase.Fits.append | exact .text rfl | exact ⟨rfl, rfl, rfl⟩
      | exact ⟨.inl rfl, rfl, rfl, rfl⟩ | exact .loose rfl

theorem propertyPlan_becomes {slot : String} {choice : Value}
    (hchoice : slots.choice slot = .ok choice) :
    Becomes ctx kind slots locals (propertyPlan ctx slots choice) := by
  refine .bind (fun _ => .choice) fun property hproperty => ?_
  split
  · exact .pure ⟨by decide, .choice hchoice⟩
  · next i owner howner =>
    have howner : owner.Fits ctx kind slots locals ⟨0, false, true⟩ ⟨0, false, false⟩ :=
      (ownerOf_fits howner).deeper bot_le
    refine .bind (fun _ => .key hproperty) fun key _ => ?_
    split
    · next member shape hmember =>
      unfold propertyMember? at hmember
      split at hmember <;> cases hmember <;>
        exact .pure (Plan.fits_phrase (.append howner (.text rfl)))
    · split
      · next hname =>
        refine .pure
          (Plan.fits_phrase (.append (.append howner (.text rfl)) ⟨fun _ => ?_, rfl, rfl, rfl⟩))
        exact .identifier (Context.property?_mem hname)
      · exact .pure ⟨by decide, .choice hproperty⟩

/-- The one fixed text with a comment in it. -/
theorem noUsername_fits :
    (Phrase.text noUsername).Fits ctx kind slots locals ⟨0, false, true⟩ ⟨0, false, false⟩ where
  code := .inr ⟨rfl, rfl, rfl, rfl⟩
  level := .ofList (by decide +kernel)
  word _ := .ofList (by decide +kernel)
  gap h := by cases h

theorem sensing_becomes (op : Sensing) :
    Becomes ctx (.known (.sensing op)) slots locals (sensing ctx slots op) := by
  cases op with
  | touchingObject =>
    refine withChoice_becomes fun choice hchoice => ?_
    split_ifs
    · exact .ok (Plan.fits_phrase (.loose rfl))
    · exact .ok (Plan.fits_phrase (.loose rfl))
    · split
      · next hsprite =>
        obtain ⟨c, hc, rfl⟩ := sprite?_eq hsprite
        refine .ok (Plan.fits_phrase ?_)
        exact .append (.append (.text rfl) ((spritePhrase_fits hc).deeper bot_le)) (.loose rfl)
      · exact .ok ⟨by decide, .choice hchoice⟩
  | distanceTo =>
    refine withChoice_becomes fun choice hchoice => ?_
    split
    · next hxy =>
      obtain ⟨hx, hy⟩ := pointOf_fits hxy
      refine .ok (Plan.fits_phrase ?_)
      repeat' first
        | apply Phrase.Fits.append | exact hx.deeper bot_le | exact hy.deeper bot_le
        | exact .text rfl | exact .loose rfl
    · exact .ok ⟨by decide, .choice hchoice⟩
  | askAndWait => exact .ok (suspend_fits (.text rfl) ⟨rfl, rfl, rfl⟩)
  | setDragMode =>
    refine .bind (fun _ => .choice) fun choice _ =>
      .pure (Plan.fits_phrase (.append (.text rfl) ?_))
    cases choice.isText "draggable" <;> exact .text rfl
  | current =>
    refine .bind (fun _ => .choice) fun choice hchoice => .bind (fun _ => .key hchoice) fun key _ =>
      ?_
    refine .pure (Plan.fits_phrase ?_)
    unfold datePart
    split <;> first | exact .text rfl | exact .loose rfl
  | propertyOf => exact withChoice_becomes fun choice hchoice => propertyPlan_becomes hchoice
  | touchingObjectMenu | distanceToMenu | keyOptions | ofObjectMenu => exact .ok rfl
  | userId => exact .ok (IsLabel.opcode rfl)
  | username => exact .ok (Plan.fits_phrase noUsername_fits)
  | _ =>
    refine .ok (Plan.fits_phrase ?_)
    repeat' first
      | apply Phrase.Fits.append | exact .text rfl | exact ⟨rfl, rfl, rfl⟩ | exact .loose rfl

/-- Between two operands stands a sign with a blank on each side. The sign may be a slash. -/
theorem binary_fits {sign : String} {cs : List Char} (hsign : " " ++ sign ++ " " = String.ofList cs)
    (hcs : Seam.after true ⟨0, false, false⟩ cs = some ⟨0, false, true⟩) (left right : String)
    (operandShape shape : Shape) :
    (binary left right sign operandShape shape).Fits ctx kind slots locals := by
  have htext : (Phrase.text (" " ++ sign ++ " ")).Fits ctx kind slots locals ⟨0, false, false⟩
      ⟨0, false, true⟩ := hsign ▸ .text hcs
  exact Plan.fits_phrase (.append (.append (m := ⟨0, false, false⟩) ⟨rfl, rfl, rfl⟩ htext)
    ⟨rfl, rfl, rfl⟩)

theorem offsetPhrase_fits (slot : String) (x : Binary64) :
    (offsetPhrase slot x).Fits ctx kind slots locals ⟨0, false, true⟩ ⟨0, false, false⟩ := by
  unfold offsetPhrase
  dsimp only
  split_ifs <;> repeat' first | apply Phrase.Fits.append | exact .text rfl | exact ⟨rfl, rfl, rfl⟩

/-- An index with one subtracted is a number, or an operand with an offset. -/
theorem indexAbsorbed?_within (subtract : Bool) :
    Within (Stops ctx kind slots) (indexAbsorbed? slots subtract)
      fun absorbed => ∀ plan, absorbed = some plan → plan.Fits ctx kind slots locals := by
  refine .bind (fun _ => .number) fun left _ => .bind (fun _ => .number) fun right _ => ?_
  split
  · refine .pure fun plan hplan => ?_
    obtain ⟨-, hplan⟩ := Option.ite_none_right_eq_some.1 hplan
    rw [← Option.some.inj hplan]
    exact ⟨rfl, rfl, rfl⟩
  · refine .pure fun plan hplan => ?_
    obtain ⟨⟨slot, literal⟩, -, hplan⟩ := List.exists_of_findSome?_eq_some hplan
    dsimp only at hplan
    split at hplan
    · split_ifs at hplan
      rw [← Option.some.inj hplan]
      exact offsetPhrase_fits _ _
    · cases hplan

theorem additive_becomes {desired : Shape} {subtract : Bool} {sign : String}
    (hplain : (arithmetic sign .numberNotNaN).Fits ctx kind slots locals) :
    Becomes ctx kind slots locals (additive slots desired subtract sign) := by
  unfold additive
  dsimp only
  split_ifs
  · have habsorbed : Within (Stops ctx kind slots) (indexAbsorbed? slots subtract)
        fun absorbed => ∀ plan, absorbed = some plan → plan.Fits ctx kind slots locals :=
        indexAbsorbed?_within subtract
    refine .bind habsorbed.faults fun absorbed h => .pure ?_
    cases absorbed with
    | none => exact hplain
    | some plan => exact habsorbed.result _ h plan rfl
  · exact .pure hplain

theorem equality_becomes : Becomes ctx kind slots locals (equality slots) := by
  unfold equality
  split_ifs
  · refine .ok (Plan.fits_phrase ?_)
    repeat' first | apply Phrase.Fits.append | exact .text rfl | exact ⟨rfl, rfl, rfl⟩
  · refine .bind (fun _ => .number) fun first _ => .bind (fun _ => .number) fun second _ => ?_
    split
    · exact .pure
        (Plan.fits_phrase (.append (.append (m := ⟨0, false, false⟩) ⟨rfl, rfl, rfl⟩ (.text rfl))
        ⟨rfl, rfl, rfl⟩))
    · exact .pure
        (Plan.fits_phrase (.append (.append (m := ⟨0, false, false⟩) ⟨rfl, rfl, rfl⟩ (.text rfl))
        ⟨rfl, rfl, rfl⟩))
    · exact .pure (binary_fits (show " " ++ "===" ++ " " = " === " by decide) rfl ..)

/-- What stands before and after the argument of a function opens and closes the same brackets. -/
theorem mathFunction?_fits {v : Value} {f : MathFunction} (h : mathFunction? v = some f) :
    ∃ d, (Phrase.text f.before).Fits ctx kind slots locals ⟨0, false, true⟩ ⟨d, false, true⟩ ∧
      (Phrase.text f.after).Fits ctx kind slots locals ⟨d, false, false⟩ ⟨0, false, false⟩ := by
  unfold mathFunction? at h
  split at h <;> cases h <;> refine ⟨_, .text rfl, ?_⟩ <;> exact .loose rfl

theorem mathPlan_becomes :
    Becomes ctx (.known (.operator .mathOp)) slots locals (mathPlan slots) := by
  refine .bind (fun _ => .choice) fun choice hchoice => .bind (fun _ => .key hchoice) fun key _ =>
    ?_
  split
  · exact .pure (.word (by decide) rfl hchoice)
  · next f hf =>
    obtain ⟨d, hbefore, hafter⟩ := mathFunction?_fits hf
    have hphrase {operand : Phrase} (shape : Shape)
        (h : operand.Fits ctx (.known (.operator .mathOp)) slots locals ⟨d, false, true⟩
          ⟨d, false, false⟩) :
        (Plan.phrase (f.before ++ operand ++ f.after) shape).Fits ctx
            (.known (.operator .mathOp)) slots locals :=
      Plan.fits_phrase (.append (.append hbefore h) hafter)
    dsimp only
    split_ifs
    · exact .bind (.pure _) fun _ _ => .pure (hphrase _ ⟨rfl, rfl, rfl⟩)
    · exact .bind (.pure _) fun _ _ => .pure (hphrase _ ⟨rfl, rfl, rfl⟩)
    · exact .bind (fun _ => .number) fun _ _ => .pure (hphrase _ ⟨rfl, rfl, rfl⟩)
    · exact .bind (fun _ => .number) fun _ _ => .pure (hphrase _ ⟨rfl, rfl, rfl⟩)

theorem operator_becomes (desired : Shape) (op : Operator) :
    Becomes ctx (.known (.operator op)) slots locals (operator slots desired op) := by
  cases op with
  | add => exact additive_becomes (binary_fits (show " " ++ "+" ++ " " = " + " by decide) rfl ..)
  | subtract =>
    exact additive_becomes (binary_fits (show " " ++ "-" ++ " " = " - " by decide) rfl ..)
  | multiply => exact .ok (binary_fits (show " " ++ "*" ++ " " = " * " by decide) rfl ..)
  | and => exact .ok (binary_fits (show " " ++ "&&" ++ " " = " && " by decide) rfl ..)
  | or => exact .ok (binary_fits (show " " ++ "||" ++ " " = " || " by decide) rfl ..)
  | join => exact .ok (binary_fits (show " " ++ "+" ++ " " = " + " by decide) rfl ..)
  | divide =>
    exact .bind (fun _ => .number) fun _ _ => .bind (fun _ => .number) fun _ _ =>
      .pure (binary_fits (show " " ++ "/" ++ " " = " / " by decide) rfl ..)
  | mod =>
    exact .bind (fun _ => .number) fun _ _ => .bind (fun _ => .number) fun _ _ =>
      .pure (binary_fits (show " " ++ "%" ++ " " = " % " by decide) rfl ..)
  | equals => exact equality_becomes
  | mathOp => exact mathPlan_becomes
  | _ =>
    refine .ok (Plan.fits_phrase ?_)
    repeat' first
      | apply Phrase.Fits.after | apply Phrase.Fits.append | exact .text rfl | exact ⟨rfl, rfl, rfl⟩
      | exact .loose rfl

theorem position_faults : FaultsIn (Stops ctx kind slots) (position slots) := by
  unfold position
  split_ifs
  · exact .pure _
  · refine .bind (fun _ => .choice) fun choice _ => ?_
    split_ifs <;> exact .pure _

theorem data_becomes (desired : Shape) (op : Data) :
    Becomes ctx (.known (.data op)) slots locals (data ctx slots desired op) := by
  cases op with
  | «variable» => exact withData_becomes fun _ hp => .ok (Plan.fits_phrase (hp.deeper bot_le))
  | changeVariableBy => exact withData_becomes fun _ hp => changeBy_becomes hp _ _
  | showVariable | hideVariable | showList | hideList => exact watcherPlan_becomes _ _ _
  | deleteOfList | itemOfList =>
    refine withData_becomes fun p hp => .bind position_faults fun position _ => ?_
    cases position
    all_goals
      refine .pure (Plan.fits_phrase ?_)
      repeat' first
        | exact hp.deeper bot_le | apply Phrase.Fits.append | exact .text rfl
        | exact ⟨rfl, rfl, rfl⟩ | exact .loose rfl
  | insertAtList | replaceItemOfList =>
    refine withData_becomes fun p hp => .ok ?_
    unfold itemFirst
    split
    · next position _ =>
      refine Plan.fits_phrase ?_
      cases position <;>
        repeat' first
          | exact hp.deeper bot_le | apply Phrase.Fits.append | apply Phrase.Fits.after
          | exact .text rfl | exact ⟨rfl, rfl, rfl⟩ | exact .loose rfl
    · next fault hfault => exact ⟨⟨0, false, false⟩, ⟨rfl, rfl, rfl⟩, position_faults fault hfault⟩
  | itemNumOfList =>
    refine withData_becomes fun p hp => .ok ?_
    unfold itemNumberPlan
    split_ifs
    all_goals
      refine Plan.fits_phrase ?_
      repeat' first
        | exact hp.deeper bot_le | apply Phrase.Fits.append | exact .text rfl
        | exact ⟨rfl, rfl, rfl⟩ | exact .loose rfl
  | setVariableTo | listContents | addToList | deleteAllOfList | lengthOfList | listContainsItem =>
    refine withData_becomes fun p hp => .ok (Plan.fits_phrase ?_)
    repeat' first
      | exact hp.deeper bot_le | apply Phrase.Fits.append | exact .text rfl | exact ⟨rfl, rfl, rfl⟩
      | exact .loose rfl

theorem intercalate_fits (ps : List Phrase)
    (h : ∀ p ∈ ps, p.Fits ctx kind slots locals ⟨0, false, true⟩ ⟨0, false, false⟩) :
    (Phrase.intercalate ", " ps).Fits ctx kind slots locals ⟨0, false, true⟩ ⟨0, false, false⟩ := by
  fun_induction Phrase.intercalate ", " ps with
  | case1 => exact .loose rfl
  | case2 p => exact h p (List.mem_singleton_self p)
  | case3 p rest _ ih =>
    exact .append (.append (h p (List.mem_cons_self ..)) (.text rfl)) (ih fun q hq =>
      h q (List.mem_cons_of_mem _ hq))

theorem callPhrase_fits {i : Nat} {warps : Bool} {args : Phrase}
    (hargs : args.Fits ctx kind slots locals ⟨0, false, true⟩ ⟨0, false, false⟩) :
    (callPhrase ctx i warps args).Fits ctx kind slots locals ⟨0, false, true⟩
      ⟨0, false, false⟩ := by
  have hname {d : Nat} :
      (Phrase.name (ctx.targetNames.scriptName i false)).Fits ctx kind slots locals ⟨d, false, true⟩
      ⟨d, false, false⟩ := ⟨fun hctx => scriptName_isName hctx i false, rfl, rfl, rfl⟩
  unfold callPhrase
  dsimp only
  split_ifs with _ hwarp
  · repeat' first
      | exact hargs.deeper le_rfl | apply Phrase.Fits.append | exact hname
      | exact .text rfl | exact .loose rfl
  · split
    · next variant hvariant =>
      have hname : (Phrase.name variant).Fits ctx kind slots locals ⟨0, false, true⟩
          ⟨0, false, false⟩ := by
        refine ⟨fun hctx => .identifier (mem_identifiers hctx.target ?_), rfl, rfl, rfl⟩
        exact List.mem_append_left _
          (List.mem_append_right _ (List.mem_map_of_mem (Assoc.mem_of_lookup hvariant)))
      repeat' first
        | exact hargs.deeper le_rfl | apply Phrase.Fits.append | exact hname
        | exact .text rfl | exact .loose rfl
    · repeat' first
        | exact hargs.deeper le_rfl | apply Phrase.Fits.append | exact hname
        | exact .text rfl | exact .loose rfl
  · have hyield : (Phrase.text "yield* this.").Fits ctx kind slots locals
        ⟨0, false, true⟩ ⟨0, false, true⟩ :=
      .refresh (Bool.eq_false_iff.2 hwarp) rfl
    repeat' first
      | exact hyield | exact hargs.deeper le_rfl | apply Phrase.Fits.append | exact hname
      | exact .text rfl | exact .loose rfl

theorem callee?_mem {proccode : Value} {i : Nat} {script : Script}
    (h : callee? ctx proccode = some (i, script)) : script ∈ ctx.target.scripts := by
  unfold callee? at h
  split at h
  · cases h
  · obtain ⟨j, -, h⟩ := Option.bind_eq_some_iff.1 h
    obtain ⟨found, hfound, h⟩ := Option.bind_eq_some_iff.1 h
    cases h
    exact List.mem_of_getElem? hfound

theorem callPlan_becomes :
    Becomes ctx (.known (.procedure .call)) slots locals (callPlan ctx slots) := by
  unfold callPlan
  dsimp only
  split
  · refine .pure ⟨by decide, ?_⟩
    split_ifs
    · exact .procedure
    · exact .nothing
  · next i script hcallee =>
    refine .bind (fun _ => .passed rfl) fun given hgiven =>
      .bind (fun _ => .callee (callee?_mem hcallee)) ?_
    refine fun arguments _ =>
      .pure (Plan.fits_phrase (callPhrase_fits (intercalate_fits _ fun p hp => ?_)))
    obtain ⟨position, -, rfl⟩ := List.mem_map.1 hp
    rcases passed_eq hgiven position with h | h | ⟨fault, h⟩
    · rw [h]; exact ⟨rfl, rfl, rfl⟩
    · rw [h]; exact .loose rfl
    · have hstops : Stops ctx (.known (.procedure .call)) slots fault := .argument rfl hgiven h
      rw [h]; exact hstops

theorem reporterPlan_becomes (hkind : kind.isReporter = true) {fallback : String}
    (hfallback : fallback = "0" ∨ fallback = "false") (shape : Shape) :
    Becomes ctx kind slots locals (reporterPlan ctx slots fallback shape) := by
  refine .bind (fun _ => .parameter hkind) fun name hname => ?_
  dsimp only
  split
  · next param hparam =>
    refine .pure ⟨fun hctx => ?_, rfl, rfl, rfl⟩
    split at hparam
    · have hparam := List.mem_map_of_mem (f := Prod.snd) (Assoc.mem_of_lookup hparam)
      have hmem : param ∈ ctx.targetNames.params.flatMap (·.map (·.2)) :=
        List.mem_flatMap.2 ⟨ctx.params, hctx.params, hparam⟩
      exact .identifier (mem_identifiers hctx.target (List.mem_append_right _ hmem))
    · cases hparam
  · next hfound =>
    refine .pure ⟨hfallback, fun hparameter => ?_⟩
    obtain ⟨s, hs, hmem⟩ := hparameter hkind
    rw [hs] at hname
    cases hname
    obtain ⟨⟨key, param⟩, hentry, rfl⟩ := List.mem_map.1 hmem
    simpa using List.lookup_eq_none_iff.1 hfound _ hentry

theorem procedure_becomes (op : Procedure) :
    Becomes ctx (.known (.procedure op)) slots locals (procedure ctx slots op) := by
  cases op with
  | call => exact callPlan_becomes
  | reporterStringNumber => exact reporterPlan_becomes rfl (.inl rfl) _
  | reporterBoolean => exact reporterPlan_becomes rfl (.inr rfl) _
  | _ => exact .ok (IsLabel.opcode rfl)

theorem penPlan_becomes (hkind : kind.wordSlot? = some "colorParam") {transparency : Phrase}
    {plan : Phrase → Except Fault Plan}
    (htransparency : transparency.Fits ctx kind slots locals ⟨0, false, true⟩ ⟨0, false, false⟩)
    (hplan : ∀ place : Phrase, place.Fits ctx kind slots locals ⟨0, false, false⟩
      ⟨0, false, false⟩ → Becomes ctx kind slots locals (plan place)) :
    Becomes ctx kind slots locals (penPlan slots transparency plan) := by
  refine .bind (fun _ => .choice) fun choice hchoice => ?_
  split_ifs
  · exact .pure htransparency
  · refine .bind (fun _ => .key hchoice) fun key _ => ?_
    split
    · next channel hfound =>
      refine hplan _ (.append (.text rfl) ?_)
      unfold penChannel? at hfound
      split at hfound <;> cases hfound <;> exact .text rfl
    · exact .pure (.word (by decide) hkind hchoice)

theorem pen_becomes (op : Pen) : Becomes ctx (.known (.pen op)) slots locals (pen slots op) := by
  cases op with
  | changeColorParamBy =>
    unfold pen
    refine penPlan_becomes rfl ?_ fun place hplace => changeBy_becomes hplace _ _
    repeat' first | apply Phrase.Fits.append | exact .text rfl | exact ⟨rfl, rfl, rfl⟩
  | setColorParamTo =>
    unfold pen
    refine penPlan_becomes rfl ?_ fun place hplace => .ok (Plan.fits_phrase ?_)
    · repeat' first | apply Phrase.Fits.append | exact .text rfl | exact ⟨rfl, rfl, rfl⟩
    · exact .append (.append (hplace.deeper bot_le) (.text rfl)) ⟨rfl, rfl, rfl⟩
  | changeSizeBy => exact changeBy_becomes (.text rfl) _ _
  | menuColorParam => exact .ok rfl
  | clear | stamp | penDown | penUp | setColorToColor | setSizeTo =>
    refine .ok (Plan.fits_phrase ?_)
    repeat' first
      | apply Phrase.Fits.append | exact .text rfl | exact ⟨rfl, rfl, rfl⟩ | exact .loose rfl
  | _ => exact .ok (IsLabel.opcode rfl)

/-- Every block becomes a plan that fits it, or stops for a reason of its own. -/
theorem plan_becomes (kind : BlockKind) (desired : Shape) (locals : Name.Space) :
    Becomes ctx kind slots locals (plan ctx kind slots desired locals) := by
  have hextension (isMenu : Bool) (op : Opcode) :
      Becomes ctx (.known op) slots locals (.ok (extension isMenu slots op.label)) := by
    cases isMenu with
    | true => exact .ok rfl
    | false => exact .ok (IsLabel.opcode rfl)
  cases kind with
  | unknown label =>
    refine .bind (fun _ => .label rfl) fun key hkey => .pure ?_
    unfold Value.asKey at hkey
    split_ifs at hkey
    cases hkey
    exact IsLabel.unknown rfl
  | known op =>
    cases op with
    | motion op => exact motion_becomes op
    | looks op => exact looks_becomes op
    | audio op => exact audio_becomes op
    | event op => exact event_becomes op
    | control op => exact control_becomes op
    | sensing op => exact sensing_becomes op
    | operator op => exact operator_becomes desired op
    | data op => exact data_becomes desired op
    | procedure op => exact procedure_becomes op
    | pen op => exact pen_becomes op
    | music op => exact hextension _ (.music op)
    | video op => exact hextension _ (.video op)
    | robot op => exact hextension _ (.robot op)

end ScratchExport.Compile
