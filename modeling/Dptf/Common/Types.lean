import Mathlib.Logic.Basic

/-!
# The common scalar types, result codes and primitives

Handles are 64-bit, result codes and primitive ids 32-bit, as the SDK declares
them.  Of the result codes only those the modelled functions return are listed,
under their numbers in the SDK.

`esifPrimitiveTypeSet2get` is the generated lookup of the GET primitive that
reads back what a SET primitive writes; `0` says there is none.  The map lists
the primitive ids in the order of the source's table, which is sorted by the SET
id.
-/

/-- `esif_handle_t`. -/
abbrev EsifHandle := UInt64

/-- `esif_error_t`. -/
abbrev EsifError := UInt32

/-- `ESIF_INVALID_HANDLE`, all bits set. -/
def esifInvalidHandle : EsifHandle := 0xFFFFFFFFFFFFFFFF

/-! ## Result codes -/

def esifOk : EsifError := 0
def esifENotImplemented : EsifError := 1000
def esifENotSupported : EsifError := 1002
def esifEUnspecified : EsifError := 1003
def esifEInvalidHandle : EsifError := 1004
def esifEIterationDone : EsifError := 1005
def esifEMaximumCapacityReached : EsifError := 1009
def esifENotInitialized : EsifError := 1011
def esifEOverflowedResultType : EsifError := 1201
def esifEUnsupportedResultDataType : EsifError := 1204
def esifEInvalidRequestType : EsifError := 1205
def esifENeedLargerBuffer : EsifError := 1300
def esifEReqSizeTypeMismatch : EsifError := 1302
def esifECommandDataInvalid : EsifError := 1500
def esifENoMemory : EsifError := 1800
def esifENoCreate : EsifError := 1801
def esifEParticipantNotFound : EsifError := 2200
def esifEParameterIsNull : EsifError := 2300
def esifEParameterIsOutOfBounds : EsifError := 2301
def esifENeedDsp : EsifError := 2401
def esifEUnsupportedRequestTempType : EsifError := 2500
def esifEUnsupportedRequestPowerType : EsifError := 2800
def esifEUnsupportedResultPowerType : EsifError := 2801
def esifENeedAlgorithm : EsifError := 2900
def esifEUnsupportedAlgorithm : EsifError := 2901
def esifENotFound : EsifError := 3000
def esifEReadonly : EsifError := 3001
def esifEIoError : EsifError := 3002
def esifEIoOpenFailed : EsifError := 3003
def esifEIoDeleteFailed : EsifError := 3004
def esifEIoHashFailed : EsifError := 3005
def esifEIoInvalidName : EsifError := 3006
def esifEWsDisc : EsifError := 3100
def esifEWsSocketError : EsifError := 3102
def esifEWsIncomplete : EsifError := 3106
def esifEUnsupportedRequestTimeType : EsifError := 3200
def esifEUnsupportedResultTimeType : EsifError := 3201
def esifEUnsupportedRequestPercentType : EsifError := 3300
def esifEUnsupportedResultPercentType : EsifError := 3301
def esifEEventNotFound : EsifError := 3500
def esifESessionDisconnected : EsifError := 3700
def esifESessionRequestFailed : EsifError := 3701

/-! ## Primitives -/

/-- `esif_primitive_type_t`. -/
abbrev EsifPrimitiveType := UInt32

def getRaplPowerLimit : EsifPrimitiveType := 38
def setFanLevel : EsifPrimitiveType := 87
def setRaplPowerLimit : EsifPrimitiveType := 130
def setProcNumberOfflineCores : EsifPrimitiveType := 153
def setRaplPowerLimitEnable : EsifPrimitiveType := 222
def setPlatformPowerLimit : EsifPrimitiveType := 334
def setPlatformPowerLimitEnable : EsifPrimitiveType := 335
def setPlatformPowerLimitTimeWindow : EsifPrimitiveType := 336
def setRaplPowerLimitTimeWindow : EsifPrimitiveType := 340
def setRaplPowerLimitDutyCycle : EsifPrimitiveType := 342
def setTccOffset : EsifPrimitiveType := 478
def setPerfPreferenceMax : EsifPrimitiveType := 797
def setPerfPreferenceMin : EsifPrimitiveType := 799

/-- `ESIF_PRIMITIVE_DOMAIN_D0`, the two-character constant `'0D'`. -/
def esifPrimitiveDomainD0 : UInt16 := 0x3044

/-- `ESIF_PRIMITIVE_DOMAIN_D1`, `'1D'`. -/
def esifPrimitiveDomainD1 : UInt16 := 0x3144

/-- `esif_primitive_type_map`, pairs of a SET and its GET. -/
def esifPrimitiveTypeMap : List (EsifPrimitiveType × EsifPrimitiveType) :=
  [(47, 143), (130, 38), (163, 157), (202, 1), (203, 13), (204, 12), (205, 177), (206, 11),
   (222, 126), (229, 228), (232, 15), (241, 14), (275, 55), (276, 61), (301, 300), (329, 159),
   (330, 160), (334, 331), (335, 332), (336, 333), (338, 337), (340, 339), (342, 341), (343, 76),
   (355, 356), (382, 291), (383, 294), (397, 396), (399, 398), (401, 400), (403, 402),
   (405, 404), (413, 412), (415, 414), (417, 416), (419, 418), (421, 420), (437, 298),
   (438, 296), (448, 447), (452, 451), (455, 35), (457, 456), (459, 458), (461, 460), (467, 466),
   (469, 468), (471, 470), (473, 472), (474, 443), (476, 128), (478, 477), (480, 479),
   (489, 482), (493, 486), (506, 505), (512, 511), (514, 513), (516, 515), (523, 522),
   (525, 524), (528, 527), (529, 530), (532, 531), (533, 436), (539, 537), (540, 538),
   (542, 541), (557, 556), (559, 558), (561, 560), (563, 562), (565, 564), (567, 566),
   (569, 568), (571, 570), (655, 654), (662, 660), (668, 667), (670, 671), (718, 686),
   (725, 724), (734, 733), (738, 737), (740, 739), (743, 742), (750, 747), (751, 748),
   (777, 776), (780, 779), (782, 781), (784, 783), (786, 785), (797, 793), (799, 795),
   (810, 801), (811, 802), (814, 806), (819, 815), (820, 817), (822, 821), (834, 833),
   (839, 838), (877, 874), (879, 875), (882, 22), (884, 139), (889, 887), (906, 902), (907, 903),
   (908, 904), (909, 905), (914, 913), (916, 915), (932, 924), (933, 925), (934, 926),
   (935, 927), (936, 928), (942, 941), (948, 947), (951, 950), (971, 920), (972, 911)]

/-- The binary search of `esif_primitive_type_set2get`.  The range shrinks in every
round, so `fuel` rounds are enough for a map of that length. -/
def set2getLoop (map : List (EsifPrimitiveType × EsifPrimitiveType)) (type : EsifPrimitiveType) :
    Nat → Int → Int → Int → EsifPrimitiveType
  | 0, _, _, _ => 0
  | fuel + 1, first, last, node =>
    if first ≤ last then
      match map[node.toNat]? with
      | none => 0
      | some (setType, getType) =>
        if type < setType then
          set2getLoop map type fuel first (node - 1) ((node - 1 - first).tdiv 2 + first)
        else if setType < type then
          set2getLoop map type fuel (node + 1) last ((last - (node + 1)).tdiv 2 + (node + 1))
        else getType
    else 0

/-- `esif_primitive_type_set2get`. -/
def esifPrimitiveTypeSet2get (type : EsifPrimitiveType) : EsifPrimitiveType :=
  let count := esifPrimitiveTypeMap.length
  set2getLoop esifPrimitiveTypeMap type (count + 1) 0 (count - 1) (count / 2)

/-- The fan level has no GET that reads it back, the power limit has one. -/
example : esifPrimitiveTypeSet2get setFanLevel = 0 ∧
    esifPrimitiveTypeSet2get setRaplPowerLimit = getRaplPowerLimit := by decide +kernel
