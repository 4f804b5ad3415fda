import ThriftGateway.Grammar.Automaton

/-!
# The states of the Thrift automaton

The automaton that `Automaton.ofGrammar` makes of the grammar of Thrift documents, written out: state by state its
items with the terminals that may follow, its shifts, its reductions and its moves.  Written out, a run of the parser
can be decided.
-/

namespace ThriftGateway.Idl

/-- The states of the automaton of the Thrift grammar. -/
def states : Array Grammar.State := #[
  ⟨[⟨⟨0, 0⟩, 8796093022208⟩], [(15, 6), (9, 7), (11, 8), (21, 16), (17, 17), (24, 18), (19, 19), (23, 20),
    (10, 21), (16, 22)], [(2, 8796093022208)], [(1, 1), (2, 2), (3, 3), (4, 4), (5, 5), (6, 9), (7, 10),
    (8, 11), (11, 12), (12, 13), (13, 14), (15, 15), (0, 23)]⟩,
  ⟨[⟨⟨1, 1⟩, 8796093022208⟩, ⟨⟨7, 1⟩, 8796121042432⟩, ⟨⟨8, 1⟩, 8796121042432⟩, ⟨⟨9, 1⟩, 8796121042432⟩,
    ⟨⟨10, 1⟩, 8796121042432⟩], [(15, 6), (9, 7), (11, 8), (21, 16), (17, 17), (24, 18), (19, 19), (23, 20),
    (10, 21), (16, 22)], [(1, 8796093022208)], [(6, 9), (7, 10), (8, 11), (11, 12), (12, 13), (13, 14),
    (15, 15), (2, 24), (3, 25), (4, 26), (5, 27)]⟩,
  ⟨[⟨⟨3, 1⟩, 8796121042432⟩], [], [(3, 8796121042432)], []⟩,
  ⟨[⟨⟨4, 1⟩, 8796121042432⟩], [], [(4, 8796121042432)], []⟩,
  ⟨[⟨⟨5, 1⟩, 8796121042432⟩], [], [(5, 8796121042432)], []⟩,
  ⟨[⟨⟨6, 1⟩, 8796121042432⟩], [], [(6, 8796121042432)], []⟩,
  ⟨[⟨⟨11, 1⟩, 8796121042432⟩], [(5, 28)], [], []⟩,
  ⟨[⟨⟨12, 1⟩, 8796121042432⟩], [(5, 29)], [], []⟩,
  ⟨[⟨⟨13, 1⟩, 8796121042432⟩, ⟨⟨14, 1⟩, 8796121042432⟩, ⟨⟨15, 1⟩, 8796121042432⟩, ⟨⟨16, 1⟩, 8796121042432⟩],
    [(42, 30), (3, 31)], [], []⟩,
  ⟨[⟨⟨17, 1⟩, 8796121042432⟩], [], [(17, 8796121042432)], []⟩,
  ⟨[⟨⟨18, 1⟩, 8796121042432⟩], [], [(18, 8796121042432)], []⟩,
  ⟨[⟨⟨19, 1⟩, 8796121042432⟩], [], [(19, 8796121042432)], []⟩,
  ⟨[⟨⟨20, 1⟩, 8796121042432⟩], [], [(20, 8796121042432)], []⟩,
  ⟨[⟨⟨21, 1⟩, 8796121042432⟩], [], [(21, 8796121042432)], []⟩,
  ⟨[⟨⟨22, 1⟩, 8796121042432⟩], [], [(22, 8796121042432)], []⟩,
  ⟨[⟨⟨23, 1⟩, 8796121042432⟩], [], [(23, 8796121042432)], []⟩,
  ⟨[⟨⟨24, 1⟩, 8796121042432⟩, ⟨⟨25, 1⟩, 8796121042432⟩], [(3, 37), (2, 38), (28, 39), (29, 40), (25, 41)], [],
    [(25, 32), (26, 33), (27, 34), (28, 35), (29, 36), (24, 42)]⟩,
  ⟨[⟨⟨26, 1⟩, 8796121042432⟩, ⟨⟨27, 1⟩, 8796121042432⟩, ⟨⟨28, 1⟩, 8796121042432⟩, ⟨⟨29, 1⟩, 8796121042432⟩],
    [(3, 37), (2, 38), (28, 39), (29, 40), (25, 41)], [], [(25, 32), (26, 33), (27, 34), (28, 35), (29, 36),
    (24, 43)]⟩,
  ⟨[⟨⟨30, 1⟩, 8796121042432⟩, ⟨⟨31, 1⟩, 8796121042432⟩, ⟨⟨32, 1⟩, 8796121042432⟩, ⟨⟨33, 1⟩, 8796121042432⟩],
    [(3, 44)], [], []⟩,
  ⟨[⟨⟨44, 1⟩, 8796121042432⟩, ⟨⟨45, 1⟩, 8796121042432⟩, ⟨⟨46, 1⟩, 8796121042432⟩, ⟨⟨47, 1⟩, 8796121042432⟩],
    [(3, 45)], [], []⟩,
  ⟨[⟨⟨48, 1⟩, 8796121042432⟩, ⟨⟨49, 1⟩, 8796121042432⟩, ⟨⟨50, 1⟩, 8796121042432⟩, ⟨⟨51, 1⟩, 8796121042432⟩],
    [(3, 46)], [], []⟩,
  ⟨[⟨⟨52, 1⟩, 8796121042432⟩, ⟨⟨53, 1⟩, 8796121042432⟩, ⟨⟨54, 1⟩, 8796121042432⟩, ⟨⟨55, 1⟩, 8796121042432⟩],
    [(3, 47)], [], []⟩,
  ⟨[⟨⟨58, 1⟩, 8796121042432⟩, ⟨⟨59, 1⟩, 8796121042432⟩, ⟨⟨60, 1⟩, 8796121042432⟩, ⟨⟨61, 1⟩, 8796121042432⟩,
    ⟨⟨62, 1⟩, 8796121042432⟩, ⟨⟨63, 1⟩, 8796121042432⟩, ⟨⟨64, 1⟩, 8796121042432⟩, ⟨⟨65, 1⟩, 8796121042432⟩],
    [(3, 48)], [], []⟩,
  ⟨[⟨⟨0, 1⟩, 8796093022208⟩], [], [(0, 8796093022208)], []⟩,
  ⟨[⟨⟨7, 2⟩, 8796121042432⟩], [], [(7, 8796121042432)], []⟩,
  ⟨[⟨⟨8, 2⟩, 8796121042432⟩], [], [(8, 8796121042432)], []⟩,
  ⟨[⟨⟨9, 2⟩, 8796121042432⟩], [], [(9, 8796121042432)], []⟩,
  ⟨[⟨⟨10, 2⟩, 8796121042432⟩], [], [(10, 8796121042432)], []⟩,
  ⟨[⟨⟨11, 2⟩, 8796121042432⟩], [], [(11, 8796121042432)], []⟩,
  ⟨[⟨⟨12, 2⟩, 8796121042432⟩], [], [(12, 8796121042432)], []⟩,
  ⟨[⟨⟨13, 2⟩, 8796121042432⟩, ⟨⟨14, 2⟩, 8796121042432⟩], [(3, 49)], [], []⟩,
  ⟨[⟨⟨15, 2⟩, 8796121042432⟩, ⟨⟨16, 2⟩, 8796121042432⟩], [(3, 50)], [], []⟩,
  ⟨[⟨⟨140, 1⟩, 139586437128⟩], [], [(140, 139586437128)], []⟩,
  ⟨[⟨⟨141, 1⟩, 139586437128⟩], [], [(141, 139586437128)], []⟩,
  ⟨[⟨⟨142, 1⟩, 139586437128⟩], [], [(142, 139586437128)], []⟩,
  ⟨[⟨⟨143, 1⟩, 139586437128⟩], [], [(143, 139586437128)], []⟩,
  ⟨[⟨⟨144, 1⟩, 139586437128⟩], [], [(144, 139586437128)], []⟩,
  ⟨[⟨⟨145, 1⟩, 13172529151791⟩], [], [(145, 13172529151791)], []⟩,
  ⟨[⟨⟨146, 1⟩, 139586437128⟩], [], [(146, 139586437128)], []⟩,
  ⟨[⟨⟨147, 1⟩, 139586437128⟩], [(34, 51)], [], []⟩,
  ⟨[⟨⟨148, 1⟩, 139586437128⟩], [(34, 52)], [], []⟩,
  ⟨[⟨⟨149, 1⟩, 139586437128⟩], [(34, 53)], [], []⟩,
  ⟨[⟨⟨24, 2⟩, 8796121042432⟩, ⟨⟨25, 2⟩, 8796121042432⟩], [(3, 54)], [], []⟩,
  ⟨[⟨⟨26, 2⟩, 8796121042432⟩, ⟨⟨27, 2⟩, 8796121042432⟩, ⟨⟨28, 2⟩, 8796121042432⟩, ⟨⟨29, 2⟩, 8796121042432⟩],
    [(3, 55)], [], []⟩,
  ⟨[⟨⟨30, 2⟩, 8796121042432⟩, ⟨⟨31, 2⟩, 8796121042432⟩, ⟨⟨32, 2⟩, 8796121042432⟩, ⟨⟨33, 2⟩, 8796121042432⟩],
    [(33, 56)], [], []⟩,
  ⟨[⟨⟨44, 2⟩, 8796121042432⟩, ⟨⟨45, 2⟩, 8796121042432⟩, ⟨⟨46, 2⟩, 8796121042432⟩, ⟨⟨47, 2⟩, 8796121042432⟩],
    [(33, 57)], [], []⟩,
  ⟨[⟨⟨48, 2⟩, 8796121042432⟩, ⟨⟨49, 2⟩, 8796121042432⟩, ⟨⟨50, 2⟩, 8796121042432⟩, ⟨⟨51, 2⟩, 8796121042432⟩],
    [(33, 58)], [], []⟩,
  ⟨[⟨⟨52, 2⟩, 8796121042432⟩, ⟨⟨53, 2⟩, 8796121042432⟩, ⟨⟨54, 2⟩, 8796121042432⟩, ⟨⟨55, 2⟩, 8796121042432⟩],
    [(33, 59)], [], []⟩,
  ⟨[⟨⟨58, 2⟩, 8796121042432⟩, ⟨⟨59, 2⟩, 8796121042432⟩, ⟨⟨60, 2⟩, 8796121042432⟩, ⟨⟨61, 2⟩, 8796121042432⟩,
    ⟨⟨62, 2⟩, 8796121042432⟩, ⟨⟨63, 2⟩, 8796121042432⟩, ⟨⟨64, 2⟩, 8796121042432⟩, ⟨⟨65, 2⟩, 8796121042432⟩],
    [(14, 60), (33, 61)], [], []⟩,
  ⟨[⟨⟨13, 3⟩, 8796121042432⟩, ⟨⟨14, 3⟩, 8796121042432⟩], [(35, 62)], [(14, 8796121042432)], [(40, 63)]⟩,
  ⟨[⟨⟨15, 3⟩, 8796121042432⟩, ⟨⟨16, 3⟩, 8796121042432⟩], [(35, 62)], [(16, 8796121042432)], [(40, 64)]⟩,
  ⟨[⟨⟨147, 2⟩, 139586437128⟩], [(3, 37), (2, 38), (28, 39), (29, 40), (25, 41)], [], [(25, 32), (26, 33),
    (27, 34), (28, 35), (29, 36), (24, 65)]⟩,
  ⟨[⟨⟨148, 2⟩, 139586437128⟩], [(3, 37), (2, 38), (28, 39), (29, 40), (25, 41)], [], [(25, 32), (26, 33),
    (27, 34), (28, 35), (29, 36), (24, 66)]⟩,
  ⟨[⟨⟨149, 2⟩, 139586437128⟩], [(3, 37), (2, 38), (28, 39), (29, 40), (25, 41)], [], [(25, 32), (26, 33),
    (27, 34), (28, 35), (29, 36), (24, 67)]⟩,
  ⟨[⟨⟨24, 3⟩, 8796121042432⟩, ⟨⟨25, 3⟩, 8796121042432⟩], [(32, 68)], [], []⟩,
  ⟨[⟨⟨26, 3⟩, 8796121042432⟩, ⟨⟨27, 3⟩, 8796121042432⟩, ⟨⟨28, 3⟩, 8796121042432⟩, ⟨⟨29, 3⟩, 8796121042432⟩],
    [(35, 62), (31, 69), (41, 70)], [(29, 8796121042432)], [(40, 71), (43, 72)]⟩,
  ⟨[⟨⟨30, 3⟩, 8796121042432⟩, ⟨⟨31, 3⟩, 8796121042432⟩, ⟨⟨32, 3⟩, 8796121042432⟩, ⟨⟨33, 3⟩, 8796121042432⟩],
    [(3, 75), (38, 76)], [], [(10, 73), (9, 74)]⟩,
  ⟨[⟨⟨44, 3⟩, 8796121042432⟩, ⟨⟨45, 3⟩, 8796121042432⟩, ⟨⟨46, 3⟩, 8796121042432⟩, ⟨⟨47, 3⟩, 8796121042432⟩],
    [(8, 82), (13, 83), (12, 84), (3, 37), (2, 38), (28, 39), (29, 40), (25, 41), (38, 85)], [], [(19, 77),
    (14, 78), (20, 79), (21, 80), (24, 81), (25, 32), (26, 33), (27, 34), (28, 35), (29, 36)]⟩,
  ⟨[⟨⟨48, 3⟩, 8796121042432⟩, ⟨⟨49, 3⟩, 8796121042432⟩, ⟨⟨50, 3⟩, 8796121042432⟩, ⟨⟨51, 3⟩, 8796121042432⟩],
    [(8, 82), (13, 83), (12, 84), (3, 37), (2, 38), (28, 39), (29, 40), (25, 41), (38, 87)], [], [(19, 77),
    (14, 86), (20, 79), (21, 80), (24, 81), (25, 32), (26, 33), (27, 34), (28, 35), (29, 36)]⟩,
  ⟨[⟨⟨52, 3⟩, 8796121042432⟩, ⟨⟨53, 3⟩, 8796121042432⟩, ⟨⟨54, 3⟩, 8796121042432⟩, ⟨⟨55, 3⟩, 8796121042432⟩],
    [(8, 82), (13, 83), (12, 84), (3, 37), (2, 38), (28, 39), (29, 40), (25, 41), (38, 89)], [], [(19, 77),
    (14, 88), (20, 79), (21, 80), (24, 81), (25, 32), (26, 33), (27, 34), (28, 35), (29, 36)]⟩,
  ⟨[⟨⟨58, 3⟩, 8796121042432⟩, ⟨⟨60, 3⟩, 8796121042432⟩, ⟨⟨62, 3⟩, 8796121042432⟩, ⟨⟨64, 3⟩, 8796121042432⟩],
    [(3, 90)], [], []⟩,
  ⟨[⟨⟨59, 3⟩, 8796121042432⟩, ⟨⟨61, 3⟩, 8796121042432⟩, ⟨⟨63, 3⟩, 8796121042432⟩, ⟨⟨65, 3⟩, 8796121042432⟩],
    [(18, 93), (27, 97), (3, 37), (2, 38), (28, 39), (29, 40), (25, 41), (38, 98)], [], [(17, 91), (16, 92),
    (22, 94), (24, 95), (23, 96), (25, 32), (26, 33), (27, 34), (28, 35), (29, 36)]⟩,
  ⟨[⟨⟨175, 1⟩, 11822898855692⟩, ⟨⟨176, 1⟩, 11822898855692⟩], [(3, 101), (39, 102)], [], [(42, 99), (41, 100)]⟩,
  ⟨[⟨⟨13, 4⟩, 8796121042432⟩], [], [(13, 8796121042432)], []⟩,
  ⟨[⟨⟨15, 4⟩, 8796121042432⟩], [], [(15, 8796121042432)], []⟩,
  ⟨[⟨⟨147, 3⟩, 139586437128⟩], [(31, 103)], [], []⟩,
  ⟨[⟨⟨148, 3⟩, 139586437128⟩], [(37, 104)], [], []⟩,
  ⟨[⟨⟨149, 3⟩, 139586437128⟩], [(37, 105)], [], []⟩,
  ⟨[⟨⟨24, 4⟩, 8796121042432⟩, ⟨⟨25, 4⟩, 8796121042432⟩], [(3, 37), (8, 113), (0, 114), (1, 115), (5, 116),
    (26, 117), (22, 118), (36, 119), (33, 120)], [], [(31, 106), (32, 107), (33, 108), (34, 109), (25, 110),
    (35, 111), (37, 112), (30, 121)]⟩,
  ⟨[⟨⟨183, 1⟩, 10798620458799⟩], [], [(183, 10798620458799)], []⟩,
  ⟨[⟨⟨184, 1⟩, 10798620458799⟩], [], [(184, 10798620458799)], []⟩,
  ⟨[⟨⟨26, 4⟩, 8796121042432⟩, ⟨⟨28, 4⟩, 8796121042432⟩], [(31, 69), (41, 70)], [(28, 8796121042432)],
    [(43, 122)]⟩,
  ⟨[⟨⟨27, 4⟩, 8796121042432⟩], [], [(27, 8796121042432)], []⟩,
  ⟨[⟨⟨34, 1⟩, 274877906952⟩], [], [(34, 274877906952)], []⟩,
  ⟨[⟨⟨30, 4⟩, 8796121042432⟩, ⟨⟨32, 4⟩, 8796121042432⟩, ⟨⟨35, 1⟩, 274877906952⟩], [(3, 75), (38, 123)], [],
    [(10, 124)]⟩,
  ⟨[⟨⟨36, 1⟩, 274877906952⟩, ⟨⟨37, 1⟩, 274877906952⟩, ⟨⟨38, 1⟩, 274877906952⟩, ⟨⟨39, 1⟩, 274877906952⟩,
    ⟨⟨40, 1⟩, 274877906952⟩, ⟨⟨41, 1⟩, 274877906952⟩, ⟨⟨42, 1⟩, 274877906952⟩, ⟨⟨43, 1⟩, 274877906952⟩],
    [(35, 62), (31, 69), (41, 70), (32, 125)], [(43, 274877906952)], [(40, 126), (43, 127)]⟩,
  ⟨[⟨⟨31, 4⟩, 8796121042432⟩, ⟨⟨33, 4⟩, 8796121042432⟩], [(35, 62)], [(33, 8796121042432)], [(40, 128)]⟩,
  ⟨[⟨⟨56, 1⟩, 825472594188⟩], [], [(56, 825472594188)], []⟩,
  ⟨[⟨⟨44, 4⟩, 8796121042432⟩, ⟨⟨46, 4⟩, 8796121042432⟩, ⟨⟨57, 1⟩, 275716780300⟩], [(8, 82), (13, 83), (12, 84),
    (3, 37), (2, 38), (28, 39), (29, 40), (25, 41), (38, 129)], [], [(20, 79), (21, 80), (24, 81), (25, 32),
    (26, 33), (27, 34), (28, 35), (29, 36), (19, 130)]⟩,
  ⟨[⟨⟨102, 1⟩, 825472594188⟩, ⟨⟨104, 1⟩, 825472594188⟩, ⟨⟨106, 1⟩, 825472594188⟩, ⟨⟨108, 1⟩, 825472594188⟩,
    ⟨⟨110, 1⟩, 825472594188⟩, ⟨⟨112, 1⟩, 825472594188⟩, ⟨⟨114, 1⟩, 825472594188⟩, ⟨⟨116, 1⟩, 825472594188⟩,
    ⟨⟨118, 1⟩, 825472594188⟩, ⟨⟨120, 1⟩, 825472594188⟩, ⟨⟨122, 1⟩, 825472594188⟩, ⟨⟨124, 1⟩, 825472594188⟩,
    ⟨⟨126, 1⟩, 825472594188⟩, ⟨⟨128, 1⟩, 825472594188⟩, ⟨⟨130, 1⟩, 825472594188⟩, ⟨⟨132, 1⟩, 825472594188⟩],
    [(13, 83), (12, 84), (3, 37), (2, 38), (28, 39), (29, 40), (25, 41)], [], [(25, 32), (26, 33), (27, 34),
    (28, 35), (29, 36), (21, 131), (24, 132)]⟩,
  ⟨[⟨⟨103, 1⟩, 825472594188⟩, ⟨⟨107, 1⟩, 825472594188⟩, ⟨⟨111, 1⟩, 825472594188⟩, ⟨⟨115, 1⟩, 825472594188⟩,
    ⟨⟨119, 1⟩, 825472594188⟩, ⟨⟨123, 1⟩, 825472594188⟩, ⟨⟨127, 1⟩, 825472594188⟩, ⟨⟨131, 1⟩, 825472594188⟩],
    [(3, 37), (2, 38), (28, 39), (29, 40), (25, 41)], [], [(25, 32), (26, 33), (27, 34), (28, 35), (29, 36),
    (24, 133)]⟩,
  ⟨[⟨⟨105, 1⟩, 825472594188⟩, ⟨⟨109, 1⟩, 825472594188⟩, ⟨⟨113, 1⟩, 825472594188⟩, ⟨⟨117, 1⟩, 825472594188⟩,
    ⟨⟨121, 1⟩, 825472594188⟩, ⟨⟨125, 1⟩, 825472594188⟩, ⟨⟨129, 1⟩, 825472594188⟩, ⟨⟨133, 1⟩, 825472594188⟩],
    [(3, 134)], [], []⟩,
  ⟨[⟨⟨134, 1⟩, 838873100⟩], [(30, 135)], [], []⟩,
  ⟨[⟨⟨135, 1⟩, 838860812⟩], [], [(135, 838860812)], []⟩,
  ⟨[⟨⟨136, 1⟩, 838860812⟩], [], [(136, 838860812)], []⟩,
  ⟨[⟨⟨45, 4⟩, 8796121042432⟩, ⟨⟨47, 4⟩, 8796121042432⟩], [(35, 62)], [(47, 8796121042432)], [(40, 136)]⟩,
  ⟨[⟨⟨48, 4⟩, 8796121042432⟩, ⟨⟨50, 4⟩, 8796121042432⟩, ⟨⟨57, 1⟩, 275716780300⟩], [(8, 82), (13, 83), (12, 84),
    (3, 37), (2, 38), (28, 39), (29, 40), (25, 41), (38, 137)], [], [(20, 79), (21, 80), (24, 81), (25, 32),
    (26, 33), (27, 34), (28, 35), (29, 36), (19, 130)]⟩,
  ⟨[⟨⟨49, 4⟩, 8796121042432⟩, ⟨⟨51, 4⟩, 8796121042432⟩], [(35, 62)], [(51, 8796121042432)], [(40, 138)]⟩,
  ⟨[⟨⟨52, 4⟩, 8796121042432⟩, ⟨⟨54, 4⟩, 8796121042432⟩, ⟨⟨57, 1⟩, 275716780300⟩], [(8, 82), (13, 83), (12, 84),
    (3, 37), (2, 38), (28, 39), (29, 40), (25, 41), (38, 139)], [], [(20, 79), (21, 80), (24, 81), (25, 32),
    (26, 33), (27, 34), (28, 35), (29, 36), (19, 130)]⟩,
  ⟨[⟨⟨53, 4⟩, 8796121042432⟩, ⟨⟨55, 4⟩, 8796121042432⟩], [(35, 62)], [(55, 8796121042432)], [(40, 140)]⟩,
  ⟨[⟨⟨58, 4⟩, 8796121042432⟩, ⟨⟨60, 4⟩, 8796121042432⟩, ⟨⟨62, 4⟩, 8796121042432⟩, ⟨⟨64, 4⟩, 8796121042432⟩],
    [(33, 141)], [], []⟩,
  ⟨[⟨⟨66, 1⟩, 275851247628⟩], [], [(66, 275851247628)], []⟩,
  ⟨[⟨⟨59, 4⟩, 8796121042432⟩, ⟨⟨63, 4⟩, 8796121042432⟩, ⟨⟨67, 1⟩, 275851247628⟩], [(18, 93), (27, 97), (3, 37),
    (2, 38), (28, 39), (29, 40), (25, 41), (38, 142)], [], [(22, 94), (24, 95), (23, 96), (25, 32), (26, 33),
    (27, 34), (28, 35), (29, 36), (17, 143)]⟩,
  ⟨[⟨⟨68, 1⟩, 275851247628⟩, ⟨⟨70, 1⟩, 275851247628⟩, ⟨⟨72, 1⟩, 275851247628⟩, ⟨⟨74, 1⟩, 275851247628⟩,
    ⟨⟨76, 1⟩, 275851247628⟩, ⟨⟨78, 1⟩, 275851247628⟩, ⟨⟨80, 1⟩, 275851247628⟩, ⟨⟨82, 1⟩, 275851247628⟩,
    ⟨⟨84, 1⟩, 275851247628⟩, ⟨⟨86, 1⟩, 275851247628⟩, ⟨⟨88, 1⟩, 275851247628⟩, ⟨⟨90, 1⟩, 275851247628⟩,
    ⟨⟨92, 1⟩, 275851247628⟩, ⟨⟨94, 1⟩, 275851247628⟩, ⟨⟨96, 1⟩, 275851247628⟩, ⟨⟨98, 1⟩, 275851247628⟩],
    [(27, 97), (3, 37), (2, 38), (28, 39), (29, 40), (25, 41)], [], [(24, 95), (23, 96), (25, 32), (26, 33),
    (27, 34), (28, 35), (29, 36), (22, 144)]⟩,
  ⟨[⟨⟨69, 1⟩, 275851247628⟩, ⟨⟨71, 1⟩, 275851247628⟩, ⟨⟨73, 1⟩, 275851247628⟩, ⟨⟨75, 1⟩, 275851247628⟩,
    ⟨⟨77, 1⟩, 275851247628⟩, ⟨⟨79, 1⟩, 275851247628⟩, ⟨⟨81, 1⟩, 275851247628⟩, ⟨⟨83, 1⟩, 275851247628⟩,
    ⟨⟨85, 1⟩, 275851247628⟩, ⟨⟨87, 1⟩, 275851247628⟩, ⟨⟨89, 1⟩, 275851247628⟩, ⟨⟨91, 1⟩, 275851247628⟩,
    ⟨⟨93, 1⟩, 275851247628⟩, ⟨⟨95, 1⟩, 275851247628⟩, ⟨⟨97, 1⟩, 275851247628⟩, ⟨⟨99, 1⟩, 275851247628⟩],
    [(3, 145)], [], []⟩,
  ⟨[⟨⟨137, 1⟩, 8⟩], [], [(137, 8)], []⟩,
  ⟨[⟨⟨138, 1⟩, 8⟩], [], [(138, 8)], []⟩,
  ⟨[⟨⟨139, 1⟩, 8⟩], [], [(139, 8)], []⟩,
  ⟨[⟨⟨61, 4⟩, 8796121042432⟩, ⟨⟨65, 4⟩, 8796121042432⟩], [(35, 62)], [(65, 8796121042432)], [(40, 146)]⟩,
  ⟨[⟨⟨177, 1⟩, 549755813896⟩], [], [(177, 549755813896)], []⟩,
  ⟨[⟨⟨175, 2⟩, 11822898855692⟩, ⟨⟨178, 1⟩, 549755813896⟩], [(3, 101), (39, 147)], [], [(42, 148)]⟩,
  ⟨[⟨⟨179, 1⟩, 549755813896⟩, ⟨⟨180, 1⟩, 549755813896⟩, ⟨⟨181, 1⟩, 549755813896⟩, ⟨⟨182, 1⟩, 549755813896⟩],
    [(31, 69), (41, 70), (32, 149)], [(182, 549755813896)], [(43, 150)]⟩,
  ⟨[⟨⟨176, 2⟩, 11822898855692⟩], [], [(176, 11822898855692)], []⟩,
  ⟨[⟨⟨147, 4⟩, 139586437128⟩], [(3, 37), (2, 38), (28, 39), (29, 40), (25, 41)], [], [(25, 32), (26, 33),
    (27, 34), (28, 35), (29, 36), (24, 151)]⟩,
  ⟨[⟨⟨148, 4⟩, 139586437128⟩], [], [(148, 139586437128)], []⟩,
  ⟨[⟨⟨149, 4⟩, 139586437128⟩], [], [(149, 139586437128)], []⟩,
  ⟨[⟨⟨150, 1⟩, 13035090198319⟩], [], [(150, 13035090198319)], []⟩,
  ⟨[⟨⟨151, 1⟩, 13035090198319⟩], [], [(151, 13035090198319)], []⟩,
  ⟨[⟨⟨152, 1⟩, 13035090198319⟩], [], [(152, 13035090198319)], []⟩,
  ⟨[⟨⟨153, 1⟩, 13035090198319⟩], [], [(153, 13035090198319)], []⟩,
  ⟨[⟨⟨154, 1⟩, 13035090198319⟩], [], [(154, 13035090198319)], []⟩,
  ⟨[⟨⟨155, 1⟩, 13035090198319⟩], [], [(155, 13035090198319)], []⟩,
  ⟨[⟨⟨156, 1⟩, 13035090198319⟩], [], [(156, 13035090198319)], []⟩,
  ⟨[⟨⟨157, 1⟩, 13035090198319⟩], [], [(157, 13035090198319)], []⟩,
  ⟨[⟨⟨158, 1⟩, 13035090198319⟩], [], [(158, 13035090198319)], []⟩,
  ⟨[⟨⟨159, 1⟩, 13035090198319⟩], [], [(159, 13035090198319)], []⟩,
  ⟨[⟨⟨160, 1⟩, 13035090198319⟩], [], [(160, 13035090198319)], []⟩,
  ⟨[⟨⟨161, 1⟩, 13035090198319⟩], [], [(161, 13035090198319)], []⟩,
  ⟨[⟨⟨162, 1⟩, 13035090198319⟩], [], [(162, 13035090198319)], []⟩,
  ⟨[⟨⟨163, 1⟩, 13035090198319⟩, ⟨⟨164, 1⟩, 13035090198319⟩], [(3, 37), (8, 113), (0, 114), (1, 115), (5, 116),
    (26, 117), (22, 118), (36, 119), (33, 120), (40, 154)], [], [(31, 106), (32, 107), (33, 108), (34, 109),
    (25, 110), (35, 111), (37, 112), (30, 152), (36, 153)]⟩,
  ⟨[⟨⟨169, 1⟩, 13035090198319⟩, ⟨⟨170, 1⟩, 13035090198319⟩], [(3, 37), (8, 113), (0, 114), (1, 115), (5, 116),
    (26, 117), (22, 118), (36, 119), (33, 120), (38, 158)], [], [(31, 106), (32, 107), (33, 108), (34, 109),
    (25, 110), (35, 111), (37, 112), (39, 155), (38, 156), (30, 157)]⟩,
  ⟨[⟨⟨24, 5⟩, 8796121042432⟩, ⟨⟨25, 5⟩, 8796121042432⟩], [(31, 69), (41, 70)], [(25, 8796121042432)],
    [(43, 159)]⟩,
  ⟨[⟨⟨26, 5⟩, 8796121042432⟩], [], [(26, 8796121042432)], []⟩,
  ⟨[⟨⟨30, 5⟩, 8796121042432⟩, ⟨⟨32, 5⟩, 8796121042432⟩], [(35, 62)], [(32, 8796121042432)], [(40, 160)]⟩,
  ⟨[⟨⟨35, 2⟩, 274877906952⟩], [], [(35, 274877906952)], []⟩,
  ⟨[⟨⟨36, 2⟩, 274877906952⟩, ⟨⟨38, 2⟩, 274877906952⟩, ⟨⟨40, 2⟩, 274877906952⟩, ⟨⟨42, 2⟩, 274877906952⟩],
    [(8, 113), (0, 114)], [], [(31, 161)]⟩,
  ⟨[⟨⟨37, 2⟩, 274877906952⟩, ⟨⟨41, 2⟩, 274877906952⟩], [(31, 69), (41, 70)], [(41, 274877906952)],
    [(43, 162)]⟩,
  ⟨[⟨⟨39, 2⟩, 274877906952⟩], [], [(39, 274877906952)], []⟩,
  ⟨[⟨⟨31, 5⟩, 8796121042432⟩], [], [(31, 8796121042432)], []⟩,
  ⟨[⟨⟨44, 5⟩, 8796121042432⟩, ⟨⟨46, 5⟩, 8796121042432⟩], [(35, 62)], [(46, 8796121042432)], [(40, 163)]⟩,
  ⟨[⟨⟨57, 2⟩, 825472594188⟩], [], [(57, 825472594188)], []⟩,
  ⟨[⟨⟨102, 2⟩, 825472594188⟩, ⟨⟨106, 2⟩, 825472594188⟩, ⟨⟨110, 2⟩, 825472594188⟩, ⟨⟨114, 2⟩, 825472594188⟩,
    ⟨⟨118, 2⟩, 825472594188⟩, ⟨⟨122, 2⟩, 825472594188⟩, ⟨⟨126, 2⟩, 825472594188⟩, ⟨⟨130, 2⟩, 825472594188⟩],
    [(3, 37), (2, 38), (28, 39), (29, 40), (25, 41)], [], [(25, 32), (26, 33), (27, 34), (28, 35), (29, 36),
    (24, 164)]⟩,
  ⟨[⟨⟨104, 2⟩, 825472594188⟩, ⟨⟨108, 2⟩, 825472594188⟩, ⟨⟨112, 2⟩, 825472594188⟩, ⟨⟨116, 2⟩, 825472594188⟩,
    ⟨⟨120, 2⟩, 825472594188⟩, ⟨⟨124, 2⟩, 825472594188⟩, ⟨⟨128, 2⟩, 825472594188⟩, ⟨⟨132, 2⟩, 825472594188⟩],
    [(3, 165)], [], []⟩,
  ⟨[⟨⟨103, 2⟩, 825472594188⟩, ⟨⟨107, 2⟩, 825472594188⟩, ⟨⟨111, 2⟩, 825472594188⟩, ⟨⟨115, 2⟩, 825472594188⟩,
    ⟨⟨119, 2⟩, 825472594188⟩, ⟨⟨123, 2⟩, 825472594188⟩, ⟨⟨127, 2⟩, 825472594188⟩, ⟨⟨131, 2⟩, 825472594188⟩],
    [(3, 166)], [], []⟩,
  ⟨[⟨⟨105, 2⟩, 825472594188⟩, ⟨⟨109, 2⟩, 825472594188⟩, ⟨⟨113, 2⟩, 825472594188⟩, ⟨⟨117, 2⟩, 825472594188⟩,
    ⟨⟨121, 2⟩, 825472594188⟩, ⟨⟨125, 2⟩, 825472594188⟩, ⟨⟨129, 2⟩, 825472594188⟩, ⟨⟨133, 2⟩, 825472594188⟩],
    [(35, 62), (31, 69), (41, 70), (32, 167)], [(133, 825472594188)], [(40, 168), (43, 169)]⟩,
  ⟨[⟨⟨134, 2⟩, 838873100⟩], [], [(134, 838873100)], []⟩,
  ⟨[⟨⟨45, 5⟩, 8796121042432⟩], [], [(45, 8796121042432)], []⟩,
  ⟨[⟨⟨48, 5⟩, 8796121042432⟩, ⟨⟨50, 5⟩, 8796121042432⟩], [(35, 62)], [(50, 8796121042432)], [(40, 170)]⟩,
  ⟨[⟨⟨49, 5⟩, 8796121042432⟩], [], [(49, 8796121042432)], []⟩,
  ⟨[⟨⟨52, 5⟩, 8796121042432⟩, ⟨⟨54, 5⟩, 8796121042432⟩], [(35, 62)], [(54, 8796121042432)], [(40, 171)]⟩,
  ⟨[⟨⟨53, 5⟩, 8796121042432⟩], [], [(53, 8796121042432)], []⟩,
  ⟨[⟨⟨58, 5⟩, 8796121042432⟩, ⟨⟨60, 5⟩, 8796121042432⟩, ⟨⟨62, 5⟩, 8796121042432⟩, ⟨⟨64, 5⟩, 8796121042432⟩],
    [(18, 93), (27, 97), (3, 37), (2, 38), (28, 39), (29, 40), (25, 41), (38, 173)], [], [(17, 91), (16, 172),
    (22, 94), (24, 95), (23, 96), (25, 32), (26, 33), (27, 34), (28, 35), (29, 36)]⟩,
  ⟨[⟨⟨59, 5⟩, 8796121042432⟩, ⟨⟨63, 5⟩, 8796121042432⟩], [(35, 62)], [(63, 8796121042432)], [(40, 174)]⟩,
  ⟨[⟨⟨67, 2⟩, 275851247628⟩], [], [(67, 275851247628)], []⟩,
  ⟨[⟨⟨68, 2⟩, 275851247628⟩, ⟨⟨70, 2⟩, 275851247628⟩, ⟨⟨72, 2⟩, 275851247628⟩, ⟨⟨74, 2⟩, 275851247628⟩,
    ⟨⟨76, 2⟩, 275851247628⟩, ⟨⟨78, 2⟩, 275851247628⟩, ⟨⟨80, 2⟩, 275851247628⟩, ⟨⟨82, 2⟩, 275851247628⟩,
    ⟨⟨84, 2⟩, 275851247628⟩, ⟨⟨86, 2⟩, 275851247628⟩, ⟨⟨88, 2⟩, 275851247628⟩, ⟨⟨90, 2⟩, 275851247628⟩,
    ⟨⟨92, 2⟩, 275851247628⟩, ⟨⟨94, 2⟩, 275851247628⟩, ⟨⟨96, 2⟩, 275851247628⟩, ⟨⟨98, 2⟩, 275851247628⟩],
    [(3, 175)], [], []⟩,
  ⟨[⟨⟨69, 2⟩, 275851247628⟩, ⟨⟨71, 2⟩, 275851247628⟩, ⟨⟨73, 2⟩, 275851247628⟩, ⟨⟨75, 2⟩, 275851247628⟩,
    ⟨⟨77, 2⟩, 275851247628⟩, ⟨⟨79, 2⟩, 275851247628⟩, ⟨⟨81, 2⟩, 275851247628⟩, ⟨⟨83, 2⟩, 275851247628⟩,
    ⟨⟨85, 2⟩, 275851247628⟩, ⟨⟨87, 2⟩, 275851247628⟩, ⟨⟨89, 2⟩, 275851247628⟩, ⟨⟨91, 2⟩, 275851247628⟩,
    ⟨⟨93, 2⟩, 275851247628⟩, ⟨⟨95, 2⟩, 275851247628⟩, ⟨⟨97, 2⟩, 275851247628⟩, ⟨⟨99, 2⟩, 275851247628⟩],
    [(35, 176)], [], []⟩,
  ⟨[⟨⟨61, 5⟩, 8796121042432⟩], [], [(61, 8796121042432)], []⟩,
  ⟨[⟨⟨175, 3⟩, 11822898855692⟩], [], [(175, 11822898855692)], []⟩,
  ⟨[⟨⟨178, 2⟩, 549755813896⟩], [], [(178, 549755813896)], []⟩,
  ⟨[⟨⟨179, 2⟩, 549755813896⟩, ⟨⟨181, 2⟩, 549755813896⟩], [(5, 177)], [], []⟩,
  ⟨[⟨⟨180, 2⟩, 549755813896⟩], [], [(180, 549755813896)], []⟩,
  ⟨[⟨⟨147, 5⟩, 139586437128⟩], [(37, 178)], [], []⟩,
  ⟨[⟨⟨165, 1⟩, 1176892342571⟩, ⟨⟨166, 1⟩, 1176892342571⟩], [(31, 69), (41, 70)], [(166, 1176892342571)],
    [(43, 179)]⟩,
  ⟨[⟨⟨163, 2⟩, 13035090198319⟩, ⟨⟨167, 1⟩, 1176892342571⟩, ⟨⟨168, 1⟩, 1176892342571⟩], [(3, 37), (8, 113),
    (0, 114), (1, 115), (5, 116), (26, 117), (22, 118), (36, 119), (33, 120), (40, 180)], [], [(31, 106),
    (32, 107), (33, 108), (34, 109), (25, 110), (35, 111), (37, 112), (30, 181)]⟩,
  ⟨[⟨⟨164, 2⟩, 13035090198319⟩], [], [(164, 13035090198319)], []⟩,
  ⟨[⟨⟨171, 1⟩, 352258621739⟩], [], [(171, 352258621739)], []⟩,
  ⟨[⟨⟨169, 2⟩, 13035090198319⟩, ⟨⟨172, 1⟩, 352258621739⟩], [(3, 37), (8, 113), (0, 114), (1, 115), (5, 116),
    (26, 117), (22, 118), (36, 119), (33, 120), (38, 182)], [], [(31, 106), (32, 107), (33, 108), (34, 109),
    (25, 110), (35, 111), (37, 112), (30, 157), (39, 183)]⟩,
  ⟨[⟨⟨173, 1⟩, 352258621739⟩, ⟨⟨174, 1⟩, 352258621739⟩], [(30, 184)], [], []⟩,
  ⟨[⟨⟨170, 2⟩, 13035090198319⟩], [], [(170, 13035090198319)], []⟩,
  ⟨[⟨⟨24, 6⟩, 8796121042432⟩], [], [(24, 8796121042432)], []⟩,
  ⟨[⟨⟨30, 6⟩, 8796121042432⟩], [], [(30, 8796121042432)], []⟩,
  ⟨[⟨⟨36, 3⟩, 274877906952⟩, ⟨⟨38, 3⟩, 274877906952⟩, ⟨⟨40, 3⟩, 274877906952⟩, ⟨⟨42, 3⟩, 274877906952⟩],
    [(35, 62), (31, 69), (41, 70)], [(42, 274877906952)], [(40, 185), (43, 186)]⟩,
  ⟨[⟨⟨37, 3⟩, 274877906952⟩], [], [(37, 274877906952)], []⟩,
  ⟨[⟨⟨44, 6⟩, 8796121042432⟩], [], [(44, 8796121042432)], []⟩,
  ⟨[⟨⟨102, 3⟩, 825472594188⟩, ⟨⟨106, 3⟩, 825472594188⟩, ⟨⟨110, 3⟩, 825472594188⟩, ⟨⟨114, 3⟩, 825472594188⟩,
    ⟨⟨118, 3⟩, 825472594188⟩, ⟨⟨122, 3⟩, 825472594188⟩, ⟨⟨126, 3⟩, 825472594188⟩, ⟨⟨130, 3⟩, 825472594188⟩],
    [(3, 187)], [], []⟩,
  ⟨[⟨⟨104, 3⟩, 825472594188⟩, ⟨⟨108, 3⟩, 825472594188⟩, ⟨⟨112, 3⟩, 825472594188⟩, ⟨⟨116, 3⟩, 825472594188⟩,
    ⟨⟨120, 3⟩, 825472594188⟩, ⟨⟨124, 3⟩, 825472594188⟩, ⟨⟨128, 3⟩, 825472594188⟩, ⟨⟨132, 3⟩, 825472594188⟩],
    [(35, 62), (31, 69), (41, 70), (32, 188)], [(132, 825472594188)], [(40, 189), (43, 190)]⟩,
  ⟨[⟨⟨103, 3⟩, 825472594188⟩, ⟨⟨107, 3⟩, 825472594188⟩, ⟨⟨111, 3⟩, 825472594188⟩, ⟨⟨115, 3⟩, 825472594188⟩,
    ⟨⟨119, 3⟩, 825472594188⟩, ⟨⟨123, 3⟩, 825472594188⟩, ⟨⟨127, 3⟩, 825472594188⟩, ⟨⟨131, 3⟩, 825472594188⟩],
    [(35, 62), (31, 69), (41, 70), (32, 191)], [(131, 825472594188)], [(40, 192), (43, 193)]⟩,
  ⟨[⟨⟨105, 3⟩, 825472594188⟩, ⟨⟨113, 3⟩, 825472594188⟩, ⟨⟨121, 3⟩, 825472594188⟩, ⟨⟨129, 3⟩, 825472594188⟩],
    [(3, 37), (8, 113), (0, 114), (1, 115), (5, 116), (26, 117), (22, 118), (36, 119), (33, 120)], [],
    [(31, 106), (32, 107), (33, 108), (34, 109), (25, 110), (35, 111), (37, 112), (30, 194)]⟩,
  ⟨[⟨⟨109, 3⟩, 825472594188⟩, ⟨⟨125, 3⟩, 825472594188⟩], [(31, 69), (41, 70)], [(125, 825472594188)],
    [(43, 195)]⟩,
  ⟨[⟨⟨117, 3⟩, 825472594188⟩], [], [(117, 825472594188)], []⟩,
  ⟨[⟨⟨48, 6⟩, 8796121042432⟩], [], [(48, 8796121042432)], []⟩,
  ⟨[⟨⟨52, 6⟩, 8796121042432⟩], [], [(52, 8796121042432)], []⟩,
  ⟨[⟨⟨58, 6⟩, 8796121042432⟩, ⟨⟨62, 6⟩, 8796121042432⟩, ⟨⟨67, 1⟩, 275851247628⟩], [(18, 93), (27, 97), (3, 37),
    (2, 38), (28, 39), (29, 40), (25, 41), (38, 196)], [], [(22, 94), (24, 95), (23, 96), (25, 32), (26, 33),
    (27, 34), (28, 35), (29, 36), (17, 143)]⟩,
  ⟨[⟨⟨60, 6⟩, 8796121042432⟩, ⟨⟨64, 6⟩, 8796121042432⟩], [(35, 62)], [(64, 8796121042432)], [(40, 197)]⟩,
  ⟨[⟨⟨59, 6⟩, 8796121042432⟩], [], [(59, 8796121042432)], []⟩,
  ⟨[⟨⟨68, 3⟩, 275851247628⟩, ⟨⟨70, 3⟩, 275851247628⟩, ⟨⟨72, 3⟩, 275851247628⟩, ⟨⟨74, 3⟩, 275851247628⟩,
    ⟨⟨76, 3⟩, 275851247628⟩, ⟨⟨78, 3⟩, 275851247628⟩, ⟨⟨80, 3⟩, 275851247628⟩, ⟨⟨82, 3⟩, 275851247628⟩,
    ⟨⟨84, 3⟩, 275851247628⟩, ⟨⟨86, 3⟩, 275851247628⟩, ⟨⟨88, 3⟩, 275851247628⟩, ⟨⟨90, 3⟩, 275851247628⟩,
    ⟨⟨92, 3⟩, 275851247628⟩, ⟨⟨94, 3⟩, 275851247628⟩, ⟨⟨96, 3⟩, 275851247628⟩, ⟨⟨98, 3⟩, 275851247628⟩],
    [(35, 198)], [], []⟩,
  ⟨[⟨⟨69, 3⟩, 275851247628⟩, ⟨⟨71, 3⟩, 275851247628⟩, ⟨⟨73, 3⟩, 275851247628⟩, ⟨⟨75, 3⟩, 275851247628⟩,
    ⟨⟨77, 3⟩, 275851247628⟩, ⟨⟨79, 3⟩, 275851247628⟩, ⟨⟨81, 3⟩, 275851247628⟩, ⟨⟨83, 3⟩, 275851247628⟩,
    ⟨⟨85, 3⟩, 275851247628⟩, ⟨⟨87, 3⟩, 275851247628⟩, ⟨⟨89, 3⟩, 275851247628⟩, ⟨⟨91, 3⟩, 275851247628⟩,
    ⟨⟨93, 3⟩, 275851247628⟩, ⟨⟨95, 3⟩, 275851247628⟩, ⟨⟨97, 3⟩, 275851247628⟩, ⟨⟨99, 3⟩, 275851247628⟩],
    [(8, 82), (13, 83), (12, 84), (3, 37), (2, 38), (28, 39), (29, 40), (25, 41), (39, 200)], [], [(19, 77),
    (14, 199), (20, 79), (21, 80), (24, 81), (25, 32), (26, 33), (27, 34), (28, 35), (29, 36)]⟩,
  ⟨[⟨⟨179, 3⟩, 549755813896⟩, ⟨⟨181, 3⟩, 549755813896⟩], [(31, 69), (41, 70)], [(181, 549755813896)],
    [(43, 201)]⟩,
  ⟨[⟨⟨147, 6⟩, 139586437128⟩], [], [(147, 139586437128)], []⟩,
  ⟨[⟨⟨165, 2⟩, 1176892342571⟩], [], [(165, 1176892342571)], []⟩,
  ⟨[⟨⟨163, 3⟩, 13035090198319⟩], [], [(163, 13035090198319)], []⟩,
  ⟨[⟨⟨167, 2⟩, 1176892342571⟩, ⟨⟨168, 2⟩, 1176892342571⟩], [(31, 69), (41, 70)], [(168, 1176892342571)],
    [(43, 202)]⟩,
  ⟨[⟨⟨169, 3⟩, 13035090198319⟩], [], [(169, 13035090198319)], []⟩,
  ⟨[⟨⟨172, 2⟩, 352258621739⟩], [], [(172, 352258621739)], []⟩,
  ⟨[⟨⟨173, 2⟩, 352258621739⟩, ⟨⟨174, 2⟩, 352258621739⟩], [(3, 37), (8, 113), (0, 114), (1, 115), (5, 116),
    (26, 117), (22, 118), (36, 119), (33, 120)], [], [(31, 106), (32, 107), (33, 108), (34, 109), (25, 110),
    (35, 111), (37, 112), (30, 203)]⟩,
  ⟨[⟨⟨36, 4⟩, 274877906952⟩, ⟨⟨40, 4⟩, 274877906952⟩], [(31, 69), (41, 70)], [(40, 274877906952)],
    [(43, 204)]⟩,
  ⟨[⟨⟨38, 4⟩, 274877906952⟩], [], [(38, 274877906952)], []⟩,
  ⟨[⟨⟨102, 4⟩, 825472594188⟩, ⟨⟨106, 4⟩, 825472594188⟩, ⟨⟨110, 4⟩, 825472594188⟩, ⟨⟨114, 4⟩, 825472594188⟩,
    ⟨⟨118, 4⟩, 825472594188⟩, ⟨⟨122, 4⟩, 825472594188⟩, ⟨⟨126, 4⟩, 825472594188⟩, ⟨⟨130, 4⟩, 825472594188⟩],
    [(35, 62), (31, 69), (41, 70), (32, 205)], [(130, 825472594188)], [(40, 206), (43, 207)]⟩,
  ⟨[⟨⟨104, 4⟩, 825472594188⟩, ⟨⟨112, 4⟩, 825472594188⟩, ⟨⟨120, 4⟩, 825472594188⟩, ⟨⟨128, 4⟩, 825472594188⟩],
    [(3, 37), (8, 113), (0, 114), (1, 115), (5, 116), (26, 117), (22, 118), (36, 119), (33, 120)], [],
    [(31, 106), (32, 107), (33, 108), (34, 109), (25, 110), (35, 111), (37, 112), (30, 208)]⟩,
  ⟨[⟨⟨108, 4⟩, 825472594188⟩, ⟨⟨124, 4⟩, 825472594188⟩], [(31, 69), (41, 70)], [(124, 825472594188)],
    [(43, 209)]⟩,
  ⟨[⟨⟨116, 4⟩, 825472594188⟩], [], [(116, 825472594188)], []⟩,
  ⟨[⟨⟨103, 4⟩, 825472594188⟩, ⟨⟨111, 4⟩, 825472594188⟩, ⟨⟨119, 4⟩, 825472594188⟩, ⟨⟨127, 4⟩, 825472594188⟩],
    [(3, 37), (8, 113), (0, 114), (1, 115), (5, 116), (26, 117), (22, 118), (36, 119), (33, 120)], [],
    [(31, 106), (32, 107), (33, 108), (34, 109), (25, 110), (35, 111), (37, 112), (30, 210)]⟩,
  ⟨[⟨⟨107, 4⟩, 825472594188⟩, ⟨⟨123, 4⟩, 825472594188⟩], [(31, 69), (41, 70)], [(123, 825472594188)],
    [(43, 211)]⟩,
  ⟨[⟨⟨115, 4⟩, 825472594188⟩], [], [(115, 825472594188)], []⟩,
  ⟨[⟨⟨105, 4⟩, 825472594188⟩, ⟨⟨113, 4⟩, 825472594188⟩, ⟨⟨121, 4⟩, 825472594188⟩, ⟨⟨129, 4⟩, 825472594188⟩],
    [(35, 62), (31, 69), (41, 70)], [(129, 825472594188)], [(40, 212), (43, 213)]⟩,
  ⟨[⟨⟨109, 4⟩, 825472594188⟩], [], [(109, 825472594188)], []⟩,
  ⟨[⟨⟨58, 7⟩, 8796121042432⟩, ⟨⟨62, 7⟩, 8796121042432⟩], [(35, 62)], [(62, 8796121042432)], [(40, 214)]⟩,
  ⟨[⟨⟨60, 7⟩, 8796121042432⟩], [], [(60, 8796121042432)], []⟩,
  ⟨[⟨⟨68, 4⟩, 275851247628⟩, ⟨⟨70, 4⟩, 275851247628⟩, ⟨⟨72, 4⟩, 275851247628⟩, ⟨⟨74, 4⟩, 275851247628⟩,
    ⟨⟨76, 4⟩, 275851247628⟩, ⟨⟨78, 4⟩, 275851247628⟩, ⟨⟨80, 4⟩, 275851247628⟩, ⟨⟨82, 4⟩, 275851247628⟩,
    ⟨⟨84, 4⟩, 275851247628⟩, ⟨⟨86, 4⟩, 275851247628⟩, ⟨⟨88, 4⟩, 275851247628⟩, ⟨⟨90, 4⟩, 275851247628⟩,
    ⟨⟨92, 4⟩, 275851247628⟩, ⟨⟨94, 4⟩, 275851247628⟩, ⟨⟨96, 4⟩, 275851247628⟩, ⟨⟨98, 4⟩, 275851247628⟩],
    [(8, 82), (13, 83), (12, 84), (3, 37), (2, 38), (28, 39), (29, 40), (25, 41), (39, 216)], [], [(19, 77),
    (14, 215), (20, 79), (21, 80), (24, 81), (25, 32), (26, 33), (27, 34), (28, 35), (29, 36)]⟩,
  ⟨[⟨⟨57, 1⟩, 550594687244⟩, ⟨⟨69, 4⟩, 275851247628⟩, ⟨⟨73, 4⟩, 275851247628⟩, ⟨⟨77, 4⟩, 275851247628⟩,
    ⟨⟨81, 4⟩, 275851247628⟩, ⟨⟨85, 4⟩, 275851247628⟩, ⟨⟨89, 4⟩, 275851247628⟩, ⟨⟨93, 4⟩, 275851247628⟩,
    ⟨⟨97, 4⟩, 275851247628⟩], [(8, 82), (13, 83), (12, 84), (3, 37), (2, 38), (28, 39), (29, 40), (25, 41),
    (39, 217)], [], [(20, 79), (21, 80), (24, 81), (25, 32), (26, 33), (27, 34), (28, 35), (29, 36),
    (19, 130)]⟩,
  ⟨[⟨⟨71, 4⟩, 275851247628⟩, ⟨⟨75, 4⟩, 275851247628⟩, ⟨⟨79, 4⟩, 275851247628⟩, ⟨⟨83, 4⟩, 275851247628⟩,
    ⟨⟨87, 4⟩, 275851247628⟩, ⟨⟨91, 4⟩, 275851247628⟩, ⟨⟨95, 4⟩, 275851247628⟩, ⟨⟨99, 4⟩, 275851247628⟩],
    [(20, 218), (35, 62), (31, 69), (41, 70)], [(99, 275851247628)], [(18, 219), (40, 220), (43, 221)]⟩,
  ⟨[⟨⟨179, 4⟩, 549755813896⟩], [], [(179, 549755813896)], []⟩,
  ⟨[⟨⟨167, 3⟩, 1176892342571⟩], [], [(167, 1176892342571)], []⟩,
  ⟨[⟨⟨173, 3⟩, 352258621739⟩, ⟨⟨174, 3⟩, 352258621739⟩], [(31, 69), (41, 70)], [(174, 352258621739)],
    [(43, 222)]⟩,
  ⟨[⟨⟨36, 5⟩, 274877906952⟩], [], [(36, 274877906952)], []⟩,
  ⟨[⟨⟨102, 5⟩, 825472594188⟩, ⟨⟨110, 5⟩, 825472594188⟩, ⟨⟨118, 5⟩, 825472594188⟩, ⟨⟨126, 5⟩, 825472594188⟩],
    [(3, 37), (8, 113), (0, 114), (1, 115), (5, 116), (26, 117), (22, 118), (36, 119), (33, 120)], [],
    [(31, 106), (32, 107), (33, 108), (34, 109), (25, 110), (35, 111), (37, 112), (30, 223)]⟩,
  ⟨[⟨⟨106, 5⟩, 825472594188⟩, ⟨⟨122, 5⟩, 825472594188⟩], [(31, 69), (41, 70)], [(122, 825472594188)],
    [(43, 224)]⟩,
  ⟨[⟨⟨114, 5⟩, 825472594188⟩], [], [(114, 825472594188)], []⟩,
  ⟨[⟨⟨104, 5⟩, 825472594188⟩, ⟨⟨112, 5⟩, 825472594188⟩, ⟨⟨120, 5⟩, 825472594188⟩, ⟨⟨128, 5⟩, 825472594188⟩],
    [(35, 62), (31, 69), (41, 70)], [(128, 825472594188)], [(40, 225), (43, 226)]⟩,
  ⟨[⟨⟨108, 5⟩, 825472594188⟩], [], [(108, 825472594188)], []⟩,
  ⟨[⟨⟨103, 5⟩, 825472594188⟩, ⟨⟨111, 5⟩, 825472594188⟩, ⟨⟨119, 5⟩, 825472594188⟩, ⟨⟨127, 5⟩, 825472594188⟩],
    [(35, 62), (31, 69), (41, 70)], [(127, 825472594188)], [(40, 227), (43, 228)]⟩,
  ⟨[⟨⟨107, 5⟩, 825472594188⟩], [], [(107, 825472594188)], []⟩,
  ⟨[⟨⟨105, 5⟩, 825472594188⟩, ⟨⟨121, 5⟩, 825472594188⟩], [(31, 69), (41, 70)], [(121, 825472594188)],
    [(43, 229)]⟩,
  ⟨[⟨⟨113, 5⟩, 825472594188⟩], [], [(113, 825472594188)], []⟩,
  ⟨[⟨⟨58, 8⟩, 8796121042432⟩], [], [(58, 8796121042432)], []⟩,
  ⟨[⟨⟨57, 1⟩, 550594687244⟩, ⟨⟨68, 5⟩, 275851247628⟩, ⟨⟨72, 5⟩, 275851247628⟩, ⟨⟨76, 5⟩, 275851247628⟩,
    ⟨⟨80, 5⟩, 275851247628⟩, ⟨⟨84, 5⟩, 275851247628⟩, ⟨⟨88, 5⟩, 275851247628⟩, ⟨⟨92, 5⟩, 275851247628⟩,
    ⟨⟨96, 5⟩, 275851247628⟩], [(8, 82), (13, 83), (12, 84), (3, 37), (2, 38), (28, 39), (29, 40), (25, 41),
    (39, 230)], [], [(20, 79), (21, 80), (24, 81), (25, 32), (26, 33), (27, 34), (28, 35), (29, 36),
    (19, 130)]⟩,
  ⟨[⟨⟨70, 5⟩, 275851247628⟩, ⟨⟨74, 5⟩, 275851247628⟩, ⟨⟨78, 5⟩, 275851247628⟩, ⟨⟨82, 5⟩, 275851247628⟩,
    ⟨⟨86, 5⟩, 275851247628⟩, ⟨⟨90, 5⟩, 275851247628⟩, ⟨⟨94, 5⟩, 275851247628⟩, ⟨⟨98, 5⟩, 275851247628⟩],
    [(20, 218), (35, 62), (31, 69), (41, 70)], [(98, 275851247628)], [(18, 231), (40, 232), (43, 233)]⟩,
  ⟨[⟨⟨69, 5⟩, 275851247628⟩, ⟨⟨73, 5⟩, 275851247628⟩, ⟨⟨77, 5⟩, 275851247628⟩, ⟨⟨81, 5⟩, 275851247628⟩,
    ⟨⟨85, 5⟩, 275851247628⟩, ⟨⟨89, 5⟩, 275851247628⟩, ⟨⟨93, 5⟩, 275851247628⟩, ⟨⟨97, 5⟩, 275851247628⟩],
    [(20, 218), (35, 62), (31, 69), (41, 70)], [(97, 275851247628)], [(18, 234), (40, 235), (43, 236)]⟩,
  ⟨[⟨⟨100, 1⟩, 2511381725196⟩, ⟨⟨101, 1⟩, 2511381725196⟩], [(35, 237)], [], []⟩,
  ⟨[⟨⟨71, 5⟩, 275851247628⟩, ⟨⟨79, 5⟩, 275851247628⟩, ⟨⟨87, 5⟩, 275851247628⟩, ⟨⟨95, 5⟩, 275851247628⟩],
    [(35, 62), (31, 69), (41, 70)], [(95, 275851247628)], [(40, 238), (43, 239)]⟩,
  ⟨[⟨⟨75, 5⟩, 275851247628⟩, ⟨⟨91, 5⟩, 275851247628⟩], [(31, 69), (41, 70)], [(91, 275851247628)],
    [(43, 240)]⟩,
  ⟨[⟨⟨83, 5⟩, 275851247628⟩], [], [(83, 275851247628)], []⟩,
  ⟨[⟨⟨173, 4⟩, 352258621739⟩], [], [(173, 352258621739)], []⟩,
  ⟨[⟨⟨102, 6⟩, 825472594188⟩, ⟨⟨110, 6⟩, 825472594188⟩, ⟨⟨118, 6⟩, 825472594188⟩, ⟨⟨126, 6⟩, 825472594188⟩],
    [(35, 62), (31, 69), (41, 70)], [(126, 825472594188)], [(40, 241), (43, 242)]⟩,
  ⟨[⟨⟨106, 6⟩, 825472594188⟩], [], [(106, 825472594188)], []⟩,
  ⟨[⟨⟨104, 6⟩, 825472594188⟩, ⟨⟨120, 6⟩, 825472594188⟩], [(31, 69), (41, 70)], [(120, 825472594188)],
    [(43, 243)]⟩,
  ⟨[⟨⟨112, 6⟩, 825472594188⟩], [], [(112, 825472594188)], []⟩,
  ⟨[⟨⟨103, 6⟩, 825472594188⟩, ⟨⟨119, 6⟩, 825472594188⟩], [(31, 69), (41, 70)], [(119, 825472594188)],
    [(43, 244)]⟩,
  ⟨[⟨⟨111, 6⟩, 825472594188⟩], [], [(111, 825472594188)], []⟩,
  ⟨[⟨⟨105, 6⟩, 825472594188⟩], [], [(105, 825472594188)], []⟩,
  ⟨[⟨⟨68, 6⟩, 275851247628⟩, ⟨⟨72, 6⟩, 275851247628⟩, ⟨⟨76, 6⟩, 275851247628⟩, ⟨⟨80, 6⟩, 275851247628⟩,
    ⟨⟨84, 6⟩, 275851247628⟩, ⟨⟨88, 6⟩, 275851247628⟩, ⟨⟨92, 6⟩, 275851247628⟩, ⟨⟨96, 6⟩, 275851247628⟩],
    [(20, 218), (35, 62), (31, 69), (41, 70)], [(96, 275851247628)], [(18, 245), (40, 246), (43, 247)]⟩,
  ⟨[⟨⟨70, 6⟩, 275851247628⟩, ⟨⟨78, 6⟩, 275851247628⟩, ⟨⟨86, 6⟩, 275851247628⟩, ⟨⟨94, 6⟩, 275851247628⟩],
    [(35, 62), (31, 69), (41, 70)], [(94, 275851247628)], [(40, 248), (43, 249)]⟩,
  ⟨[⟨⟨74, 6⟩, 275851247628⟩, ⟨⟨90, 6⟩, 275851247628⟩], [(31, 69), (41, 70)], [(90, 275851247628)],
    [(43, 250)]⟩,
  ⟨[⟨⟨82, 6⟩, 275851247628⟩], [], [(82, 275851247628)], []⟩,
  ⟨[⟨⟨69, 6⟩, 275851247628⟩, ⟨⟨77, 6⟩, 275851247628⟩, ⟨⟨85, 6⟩, 275851247628⟩, ⟨⟨93, 6⟩, 275851247628⟩],
    [(35, 62), (31, 69), (41, 70)], [(93, 275851247628)], [(40, 251), (43, 252)]⟩,
  ⟨[⟨⟨73, 6⟩, 275851247628⟩, ⟨⟨89, 6⟩, 275851247628⟩], [(31, 69), (41, 70)], [(89, 275851247628)],
    [(43, 253)]⟩,
  ⟨[⟨⟨81, 6⟩, 275851247628⟩], [], [(81, 275851247628)], []⟩,
  ⟨[⟨⟨100, 2⟩, 2511381725196⟩, ⟨⟨101, 2⟩, 2511381725196⟩], [(8, 82), (13, 83), (12, 84), (3, 37), (2, 38),
    (28, 39), (29, 40), (25, 41), (39, 255)], [], [(19, 77), (14, 254), (20, 79), (21, 80), (24, 81), (25, 32),
    (26, 33), (27, 34), (28, 35), (29, 36)]⟩,
  ⟨[⟨⟨71, 6⟩, 275851247628⟩, ⟨⟨87, 6⟩, 275851247628⟩], [(31, 69), (41, 70)], [(87, 275851247628)],
    [(43, 256)]⟩,
  ⟨[⟨⟨79, 6⟩, 275851247628⟩], [], [(79, 275851247628)], []⟩,
  ⟨[⟨⟨75, 6⟩, 275851247628⟩], [], [(75, 275851247628)], []⟩,
  ⟨[⟨⟨102, 7⟩, 825472594188⟩, ⟨⟨118, 7⟩, 825472594188⟩], [(31, 69), (41, 70)], [(118, 825472594188)],
    [(43, 257)]⟩,
  ⟨[⟨⟨110, 7⟩, 825472594188⟩], [], [(110, 825472594188)], []⟩,
  ⟨[⟨⟨104, 7⟩, 825472594188⟩], [], [(104, 825472594188)], []⟩,
  ⟨[⟨⟨103, 7⟩, 825472594188⟩], [], [(103, 825472594188)], []⟩,
  ⟨[⟨⟨68, 7⟩, 275851247628⟩, ⟨⟨76, 7⟩, 275851247628⟩, ⟨⟨84, 7⟩, 275851247628⟩, ⟨⟨92, 7⟩, 275851247628⟩],
    [(35, 62), (31, 69), (41, 70)], [(92, 275851247628)], [(40, 258), (43, 259)]⟩,
  ⟨[⟨⟨72, 7⟩, 275851247628⟩, ⟨⟨88, 7⟩, 275851247628⟩], [(31, 69), (41, 70)], [(88, 275851247628)],
    [(43, 260)]⟩,
  ⟨[⟨⟨80, 7⟩, 275851247628⟩], [], [(80, 275851247628)], []⟩,
  ⟨[⟨⟨70, 7⟩, 275851247628⟩, ⟨⟨86, 7⟩, 275851247628⟩], [(31, 69), (41, 70)], [(86, 275851247628)],
    [(43, 261)]⟩,
  ⟨[⟨⟨78, 7⟩, 275851247628⟩], [], [(78, 275851247628)], []⟩,
  ⟨[⟨⟨74, 7⟩, 275851247628⟩], [], [(74, 275851247628)], []⟩,
  ⟨[⟨⟨69, 7⟩, 275851247628⟩, ⟨⟨85, 7⟩, 275851247628⟩], [(31, 69), (41, 70)], [(85, 275851247628)],
    [(43, 262)]⟩,
  ⟨[⟨⟨77, 7⟩, 275851247628⟩], [], [(77, 275851247628)], []⟩,
  ⟨[⟨⟨73, 7⟩, 275851247628⟩], [], [(73, 275851247628)], []⟩,
  ⟨[⟨⟨57, 1⟩, 550594687244⟩, ⟨⟨100, 3⟩, 2511381725196⟩], [(8, 82), (13, 83), (12, 84), (3, 37), (2, 38),
    (28, 39), (29, 40), (25, 41), (39, 263)], [], [(20, 79), (21, 80), (24, 81), (25, 32), (26, 33), (27, 34),
    (28, 35), (29, 36), (19, 130)]⟩,
  ⟨[⟨⟨101, 3⟩, 2511381725196⟩], [], [(101, 2511381725196)], []⟩,
  ⟨[⟨⟨71, 7⟩, 275851247628⟩], [], [(71, 275851247628)], []⟩,
  ⟨[⟨⟨102, 8⟩, 825472594188⟩], [], [(102, 825472594188)], []⟩,
  ⟨[⟨⟨68, 8⟩, 275851247628⟩, ⟨⟨84, 8⟩, 275851247628⟩], [(31, 69), (41, 70)], [(84, 275851247628)],
    [(43, 264)]⟩,
  ⟨[⟨⟨76, 8⟩, 275851247628⟩], [], [(76, 275851247628)], []⟩,
  ⟨[⟨⟨72, 8⟩, 275851247628⟩], [], [(72, 275851247628)], []⟩,
  ⟨[⟨⟨70, 8⟩, 275851247628⟩], [], [(70, 275851247628)], []⟩,
  ⟨[⟨⟨69, 8⟩, 275851247628⟩], [], [(69, 275851247628)], []⟩,
  ⟨[⟨⟨100, 4⟩, 2511381725196⟩], [], [(100, 2511381725196)], []⟩,
  ⟨[⟨⟨68, 9⟩, 275851247628⟩], [], [(68, 275851247628)], []⟩]

end ThriftGateway.Idl
